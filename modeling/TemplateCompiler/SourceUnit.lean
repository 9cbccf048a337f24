import TemplateCompiler.Digest
import TemplateCompiler.Text.Bytes

/-! Generated sources that a host is asked to compile and load. -/
namespace TemplateCompiler

/-- A digest of the text of a source. Sources with equal texts have equal fingerprints. -/
structure Fingerprint where
  digest : Digest
  deriving DecidableEq, Repr

namespace Fingerprint

def ofText (source : String) : Fingerprint := ⟨.ofBytes (Text.bytes source)⟩

/-- The fingerprint in 64 hexadecimal digits. -/
def display (f : Fingerprint) : String :=
  String.ofList (f.digest.words.flatMap Digest.wordHexadecimal)

/-- The first sixteen digits. -/
def short (f : Fingerprint) : String :=
  String.ofList ([f.digest.a, f.digest.b].flatMap Digest.wordHexadecimal)

end Fingerprint

/-- A source with its fingerprint and a name made of the fingerprint. -/
structure SourceUnit where
  name : String
  source : String
  fingerprint : Fingerprint
  deriving DecidableEq, Repr

/-- Name a source by what it contains. -/
def SourceUnit.ofSource (stem source : String) : SourceUnit :=
  let fingerprint := Fingerprint.ofText source
  ⟨stem ++ "_" ++ fingerprint.short, source, fingerprint⟩

/-- The name under which a host holds code that it compiled and loaded. -/
structure Handle where
  name : String
  deriving DecidableEq, Repr

end TemplateCompiler
