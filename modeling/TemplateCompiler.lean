import TemplateCompiler.Compiler
import TemplateCompiler.Service
import TemplateCompiler.Host.Scripted
import TemplateCompiler.Report
import TemplateCompiler.Proofs.Table
import TemplateCompiler.Proofs.SourceMap
import TemplateCompiler.Proofs.Template.Escaping
import TemplateCompiler.Proofs.Template.Tokens
import TemplateCompiler.Proofs.Template.Layout
import TemplateCompiler.Proofs.Template.Lossless
import TemplateCompiler.Proofs.Template.Unparse
import TemplateCompiler.Proofs.Derivation
import TemplateCompiler.Proofs.Compiler.Attempts
import TemplateCompiler.Proofs.Compiler.Submission
import TemplateCompiler.Proofs.Compiler.Interpolation
import TemplateCompiler.Proofs.Compiler.Nesting
import TemplateCompiler.Proofs.Conversion.Lookup
import TemplateCompiler.Proofs.Conversion.Calls
import TemplateCompiler.Proofs.Compiler.Folding
import TemplateCompiler.Proofs.Compiler.Runs
import TemplateCompiler.Proofs.Compiler.Inquiries
import TemplateCompiler.Proofs.Conversion.Correspondence
import TemplateCompiler.Proofs.Conversion.Catalog
import TemplateCompiler.Proofs.Conversion.Origins
import TemplateCompiler.Proofs.Conversion.Descriptors
import TemplateCompiler.Proofs.Compiler.Literals
import TemplateCompiler.Proofs.Conversion.Answers
import TemplateCompiler.Proofs.Compiler.Transparency
import TemplateCompiler.Proofs.Compiler.Passthrough
import TemplateCompiler.Proofs.Compiler.Lines
import TemplateCompiler.Proofs.Report.Labels
import TemplateCompiler.Proofs.Compiler.Agreement
import TemplateCompiler.Proofs.Conversion.Failures
import TemplateCompiler.Proofs.Conversion.Reuse
import TemplateCompiler.Proofs.Compiler.Retention
import TemplateCompiler.Proofs.Compiler.Conformance
import TemplateCompiler.Proofs.Template.Openers
import TemplateCompiler.Proofs.Template.Concatenation
import TemplateCompiler.Proofs.Number.Integer
import TemplateCompiler.Proofs.Template.Scan
import TemplateCompiler.Proofs.Template.Grammar
import TemplateCompiler.Proofs.Template.Search
import TemplateCompiler.Proofs.Conversion.Availability
import TemplateCompiler.Proofs.Compiler.Integers
