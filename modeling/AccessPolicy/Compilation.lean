import AccessPolicy.Analysis.Report
import AccessPolicy.PolicySet.Generate
import AccessPolicy.Program.Listing
import AccessPolicy.Program.Reader

/-!
# Compilation

From a source text to a policy set. Each stage that is reached leaves its result;
a program with an error of any stage has no policy set.
-/

namespace AccessPolicy

structure Compilation where
  tokens : List Located
  listing : Option String
  diagnostics : List Diagnostic
  report : Option Report
  policySet : Option PolicySet

namespace Compilation

def success (c : Compilation) : Bool := c.policySet.isSome

def errors (c : Compilation) : List Diagnostic := c.diagnostics.filter Diagnostic.isError

end Compilation

def compile (o : Options) (source : String) : Compilation :=
  let (stream, faults) := TokenStream.scan source
  match Program.ofTokens o.maxErrors stream with
  | .error errors => ⟨stream.tokens, none, faults ++ errors, none, none⟩
  | .ok program =>
    let report := program.analyze o
    let diagnostics := faults ++ report.diagnostics
    let policySet :=
      if diagnostics.any Diagnostic.isError then none
      else some (PolicySet.ofProgram o.synthesize program)
    ⟨stream.tokens, some program.listing, diagnostics, some report, policySet⟩

end AccessPolicy
