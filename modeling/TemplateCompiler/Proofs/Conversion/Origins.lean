import Mathlib.Data.List.Forall2
import TemplateCompiler.Proofs.Conversion.Catalog

/-! What the registries of a catalog hold, told by how each of them came about. The shared
id is on exactly those that started with the standard conversions and were told nothing
since. Every other registration is under an id that nothing had before. -/
namespace TemplateCompiler

/-- How a registry came about: what it started with, and what was registered since. -/
structure Origin where
  isStandard : Bool
  registered : List (ValueType × Conversion)

namespace Origin

def conversions (origin : Origin) : Table ValueType Conversion :=
  origin.registered.foldl (fun t pair => t.insert pair.1 pair.2)
    (if origin.isStandard then Registry.standardConversions else .empty)

def register (origin : Origin) (type : ValueType) (conversion : Conversion) : Origin :=
  { origin with registered := origin.registered ++ [(type, conversion)] }

/-- Whether a registry is a standard one to which nothing was done. -/
def IsUnmodified (origin : Origin) : Prop :=
  origin.isStandard = true ∧ origin.registered = []

@[simp] theorem conversions_register (origin : Origin) (type : ValueType)
    (conversion : Conversion) :
    (origin.register type conversion).conversions = origin.conversions.insert type conversion := by
  rw [conversions, register, List.foldl_append]
  rfl

/-- A registry is not unmodified after a registration. -/
theorem not_isUnmodified_register (origin : Origin) (type : ValueType)
    (conversion : Conversion) : ¬ (origin.register type conversion).IsUnmodified := by
  simp [IsUnmodified, register]

/-- A registry is as its origin says, and its id tells whether it is a standard one that
is unmodified. -/
def Describes (origin : Origin) (r : Registry) : Prop :=
  r.conversions = origin.conversions ∧ (r.id = .standard ↔ origin.IsUnmodified)

end Origin

namespace Catalog
variable {made : List Registry} {origins : List Origin} {c d : Catalog}

/-- The origins of the registries after an operation. A copy has the origin of what was
copied. -/
def Operation.trace (origins : List Origin) : Operation → List Origin
  | .create => origins ++ [⟨false, []⟩]
  | .createStandard => origins ++ [⟨true, []⟩]
  | .copy index => origins ++ origins[index]?.toList
  | .register index type conversion =>
    origins.modify index fun origin => origin.register type conversion

/-- A catalog with every registry that was ever part of it, and with the origins of those
that are part of it now. -/
inductive Traced : List Registry → List Origin → Catalog → Prop where
  | start : Traced [] [] .empty
  | step {made : List Registry} {origins : List Origin} {c d : Catalog} {operation : Operation}
      (prior : Traced made origins c) (last : c.perform? operation = some d) :
      Traced (made ++ d.registries) (operation.trace origins) d

/-- To keep track of the origins changes nothing in the history of a catalog. -/
theorem Traced.history (h : Traced made origins c) : History made c := by
  induction h with
  | start => exact .start
  | step prior last ih => exact .step ih last

theorem Traced.registries_subset (h : Traced made origins c) : c.registries ⊆ made := by
  cases h with
  | start => exact List.nil_subset _
  | step => exact List.subset_append_right _ _

theorem forall₂_modify_set {α β : Type} {R : α → β → Prop} {as : List α} {bs : List β}
    (h : List.Forall₂ R as bs) {f : α → α} {b b' : β} {index : Nat} (hAt : bs[index]? = some b)
    (hNew : ∀ a, R a b → R (f a) b') :
    List.Forall₂ R (as.modify index f) (bs.set index b') := by
  induction h generalizing index with
  | nil => cases hAt
  | cons hHead hTail ih =>
      cases index with
      | zero =>
          cases hAt
          exact .cons (hNew _ hHead) hTail
      | succ index => exact .cons hHead (ih hAt)

theorem exists_left_of_forall₂ {α β : Type} {R : α → β → Prop} {as : List α} {bs : List β}
    (h : List.Forall₂ R as bs) {b : β} {index : Nat} (hAt : bs[index]? = some b) :
    ∃ a, as[index]? = some a ∧ R a b := by
  induction h generalizing index with
  | nil => cases hAt
  | cons hHead hTail ih =>
      cases index with
      | zero =>
          cases hAt
          exact ⟨_, rfl, hHead⟩
      | succ index => exact ih hAt

/-- What one operation does to the registries, it does to their origins. -/
theorem forall₂_describes_trace {operation : Operation}
    (h : List.Forall₂ Origin.Describes origins c.registries)
    (hDone : c.perform? operation = some d) (hIssued : d.issued < UInt64.size) :
    List.Forall₂ Origin.Describes (operation.trace origins) d.registries := by
  cases operation with
  | create =>
      cases hDone
      have hNew : Origin.Describes ⟨false, []⟩ ⟨.issued c.issued, .empty⟩ := by
        refine ⟨rfl, ?_⟩
        simp [RegistryId.issued_ne_standard hIssued, Origin.IsUnmodified]
      exact List.rel_append h (.cons hNew .nil)
  | createStandard =>
      cases hDone
      have hNew : Origin.Describes ⟨true, []⟩ .standard := by
        refine ⟨rfl, ?_⟩
        simp [Registry.standard, Origin.IsUnmodified]
      exact List.rel_append h (.cons hNew .nil)
  | copy index =>
      obtain ⟨original, hOriginal, hCopied⟩ := Option.bind_eq_some_iff.mp hDone
      cases hCopied
      obtain ⟨origin, hOrigin, hDescribes⟩ := exists_left_of_forall₂ h hOriginal
      rw [Operation.trace, hOrigin]
      exact List.rel_append h (.cons hDescribes .nil)
  | register index type conversion =>
      obtain ⟨original, hOriginal, hChanged⟩ := Option.bind_eq_some_iff.mp hDone
      cases hChanged
      refine forall₂_modify_set h hOriginal fun origin hOrigin => ⟨?_, ?_⟩
      · rw [Origin.conversions_register, hOrigin.1]
      · simp [RegistryId.issued_ne_standard hIssued, Origin.not_isUnmodified_register]

/-- Every registry of a traced catalog is as its origin says. -/
theorem Traced.describes (h : Traced made origins c) (hIssued : c.issued < UInt64.size) :
    List.Forall₂ Origin.Describes origins c.registries := by
  induction h with
  | start => exact .nil
  | @step made origins c d operation prior last ih =>
      have hEarlier : c.issued ≤ d.issued := (registries_of_perform? last).1
      exact forall₂_describes_trace (ih (Nat.lt_of_le_of_lt hEarlier hIssued)) last hIssued

/-- The next id is on no registry that ever was, and it was not given up for the shared
one. -/
theorem History.issued_is_new (h : History made c) (hLeft : c.issued + 1 < UInt64.size) :
    (∀ r ∈ made, r.id ≠ .issued c.issued) ∧
    ∀ n < c.issued, RegistryId.issued n ≠ .issued c.issued := by
  have hOther : ∀ n < c.issued, RegistryId.issued n ≠ .issued c.issued := by
    intro n hn hEq
    exact absurd (RegistryId.issued_inj (by omega) hLeft hEq) (Nat.ne_of_lt hn)
  obtain ⟨contents, hNamed, _⟩ := h.exists_contents
  refine ⟨fun r hr => ?_, hOther⟩
  rcases hNamed r hr with rfl | ⟨n, hn, rfl⟩
  · exact (RegistryId.issued_ne_standard hLeft).symm
  · exact hOther n hn

/-- Registrations in the last registry go into it one after the other, each with an id of its
own. -/
theorem foldlM_register_last (registries : List Registry)
    (pairs : List (ValueType × Conversion)) (t : Table ValueType Conversion) (issued : Nat) :
    (pairs.map fun pair => Operation.register registries.length pair.1 pair.2).foldlM perform?
        ⟨registries ++ [⟨.issued issued, t⟩], issued + 1⟩ =
      some ⟨registries ++ [⟨.issued (issued + pairs.length),
        pairs.foldl (fun t pair => t.insert pair.1 pair.2) t⟩], issued + 1 + pairs.length⟩ := by
  induction pairs generalizing t issued with
  | nil => rfl
  | cons pair rest ih =>
      have hFirst : perform? ⟨registries ++ [⟨.issued issued, t⟩], issued + 1⟩
          (.register registries.length pair.1 pair.2) =
          some ⟨registries ++ [⟨.issued (issued + 1), t.insert pair.1 pair.2⟩],
            issued + 1 + 1⟩ := by
        simp [perform?]
      rw [List.map_cons, List.foldlM_cons, hFirst]
      refine (ih (t.insert pair.1 pair.2) (issued + 1)).trans ?_
      rw [List.length_cons, List.foldl_cons, Nat.add_assoc, Nat.add_comm 1 rest.length]
      congr 2
      omega

/-- A standard registry is made like any other: it starts empty, and the standard
conversions are registered one by one. Only then is the last id replaced by the shared
one. -/
theorem createStandard_registers_each (c : Catalog) :
    ∃ spare, c.issued ≤ spare ∧
      (Operation.create :: Registry.standardConversions.entries.map fun pair =>
          Operation.register c.registries.length pair.1 pair.2).foldlM perform? c =
        some ⟨c.registries ++ [⟨.issued spare, Registry.standardConversions⟩], spare + 1⟩ ∧
      c.perform? .createStandard = some ⟨c.registries ++ [⟨.standard,
        Registry.standardConversions⟩], spare + 1⟩ := by
  refine ⟨c.issued + 6, Nat.le_add_right _ _, ?_, rfl⟩
  rw [List.foldlM_cons]
  exact foldlM_register_last c.registries Registry.standardConversions.entries .empty c.issued

/-- In the course of any operations on any number of registries, an id stands for what a
registry holds: the types, their order, and with each type its function and whether it may
be absent. All standard registries to which nothing was done share one id, and no other
registry has it. A registration puts its registry under an id that none had before, be it
still there or not, and leaves all others as they are, copies among them. -/
theorem id_names_contents (h : Traced made origins c) (hIssued : c.issued < UInt64.size) :
    (∀ r ∈ made, ∀ r' ∈ made, r.id = r'.id → r.conversions = r'.conversions) ∧
    c.registries ⊆ made ∧
    List.Forall₂ (fun origin r => r.conversions = origin.conversions ∧
      (r.id = .standard ↔ origin.isStandard = true ∧ origin.registered = []))
      origins c.registries ∧
    ∀ index r type conversion, c.registries[index]? = some r → c.issued + 1 < UInt64.size →
      ∃ d changed, c.perform? (.register index type conversion) = some d ∧
        d.registries[index]? = some changed ∧
        changed.conversions = r.conversions.insert type conversion ∧
        (∀ old ∈ made, changed.id ≠ old.id) ∧
        (∀ n < c.issued, changed.id ≠ .issued n) ∧
        ∀ other, other ≠ index → d.registries[other]? = c.registries[other]? := by
  refine ⟨fun r hr r' hr' => h.history.conversions_eq_of_id_eq hIssued hr hr',
    h.registries_subset, h.describes hIssued, ?_⟩
  intro index r type conversion hAt hLeft
  obtain ⟨hMade, hGivenUp⟩ := h.history.issued_is_new hLeft
  have hIndex : index < c.registries.length := (List.getElem?_eq_some_iff.mp hAt).1
  refine ⟨⟨c.registries.set index ⟨.issued c.issued, r.conversions.insert type conversion⟩,
    c.issued + 1⟩, ⟨.issued c.issued, r.conversions.insert type conversion⟩, ?_, ?_, rfl,
    fun old hOld => (hMade old hOld).symm, fun n hn => (hGivenUp n hn).symm, ?_⟩
  · simp [perform?, hAt]
  · exact List.getElem?_set_self hIndex
  · intro other hOther
    exact List.getElem?_set_ne hOther.symm

/-- A copy of a standard registry that learns one more type is told from the original,
which stays what it was. -/
theorem id_names_contents_copied :
    ∃ d changed, (Catalog.mk [.standard, .standard] 7).perform?
        (.register 1 .text ⟨false, .text⟩) = some d ∧
      d.registries[1]? = some changed ∧ changed.id ≠ .standard ∧
      d.registries[0]? = some .standard := by
  have hMade : Catalog.empty.perform? .createStandard = some ⟨[.standard], 7⟩ := rfl
  have hCopied : (Catalog.mk [.standard] 7).perform? (.copy 0) =
      some ⟨[.standard, .standard], 7⟩ := rfl
  obtain ⟨_, _, _, hRegister⟩ :=
    id_names_contents (.step (.step .start hMade) hCopied) (by decide)
  obtain ⟨d, changed, hDone, hChanged, _, hNew, _, hOthers⟩ :=
    hRegister 1 .standard .text ⟨false, .text⟩ rfl (by decide)
  exact ⟨d, changed, hDone, hChanged, hNew .standard (by simp), hOthers 0 (by decide)⟩

end Catalog
end TemplateCompiler
