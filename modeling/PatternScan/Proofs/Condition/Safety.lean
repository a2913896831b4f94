import PatternScan.Proofs.Condition.Meaning
import PatternScan.Proofs.Rule.Walks
import PatternScan.Scan.Scanner
/-! The machine keeps to its stack while it evaluates the conditions of compiled rules. -/
namespace PatternScan.Condition
open Scan Rule
/-- The machine that evaluates compiled conditions finds an instruction and on the stack what the instruction takes, one
value at the end of each rule and none at the end of the program, as long as the rules of the sets in the conditions are
not disabled. -/
theorem evaluation_safe (x:Scanner) (cfg:Configuration) (listener:Listener) (size:Option Int64) (found:Findings)
 (entry:Int64) (hstack:cfg.stackSize ≤ 2 ^ 63) {c:Compiler} (hcode:x.set.code=c.ruleSet.code)
 (henabled:∀ index condition,.rule index condition ∈ c.sections.toList → condition.Every (Expression.Fits x.set))
 (w:ScanState) :
 Safe (x.environment cfg listener size found entry) stepLimit
  { matched := Array.replicate x.set.rules.size false,
    unsatisfied := Array.replicate x.set.spaces.size false,world := w } := by
 have hr:(x.environment cfg listener size found entry).Regular:=by
  refine⟨?_,hstack⟩
  intro b cs w w' code hcall
  cases hcall
 exact program_safe hr ⟨hcode,henabled⟩ (Verdicts.start x.set w)
/-- `rule a { condition: true } rule b { condition: any of (a) }` -/
def memberOfSet:Compiler:=
 let first:=((({}:Compiler).enterSpace "default").declaring "a").concluding (.integer 1) 0
 (first.declaring "b").concluding (.someRules (.integer 1) [0]) 0
lemma memberOfSet_sections:memberOfSet.sections.toList=[.rule 0 (.integer 1),.rule 1 (.someRules (.integer 1) [0])]:=by
 with_unfolding_all rfl
theorem evaluation_safe_member :
 let x:=Scanner.create memberOfSet.ruleSet
 let w:ScanState:={ objects := [],source := { blocks := #[] },events := #[] }
 Safe (x.environment {} default none x.findings 0) stepLimit
  { matched := #[false,false],unsatisfied := #[false],world := w }:=by
 intro x w
 have hsize:x.set.rules.size=2∧x.set.spaces.size=1:=by decide +kernel
 have hon:∀ i∈[0],(x.set.rule i).disabled=false:=by decide +kernel
 have henabled:∀ index condition,.rule index condition∈memberOfSet.sections.toList→
  condition.Every (Expression.Fits x.set):=by
  intro index condition hmem
  rw[memberOfSet_sections]at hmem
  rcases List.mem_pair.1 hmem with h|h<;>cases h
  ·exact .leaf trivial rfl
  ·exact .intro hon fun y hy=>List.mem_singleton.1 hy ▸ .leaf trivial rfl
 have hsafe:=evaluation_safe x {} default none x.findings 0 (by decide) rfl henabled w
 rwa[hsize.1,hsize.2]at hsafe
/-- The undefined value of a disabled rule ends the set that the rule is in, and the quantity of the
set is left on the stack. -/
theorem disabled_member_unbalances :
 let x:=Scanner.create (memberOfSet.ruleSet.setDisabled 0 true)
 let found:={x.findings with required := #[true,true]}
 (evaluate (x.environment {} default none found 0) ⟨x.objects,{},{ blocks := #[] },#[]⟩).1=.internalFatalError:=by
 decide +kernel
end PatternScan.Condition
