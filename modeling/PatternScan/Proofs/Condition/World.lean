import Mathlib
import PatternScan.Condition.Machine
/-! Conditions see the world only through its answers. -/
open Option
open PatternScan.Condition.Environment
namespace PatternScan
structure RuleSet.SameConditions (s s':RuleSet):Prop where
 code:s'.code=s.code
 regexCode:s'.regexCode=s.regexCode
 spaces:s'.spaces.size=s.spaces.size
 rules:s'.rules.size=s.rules.size
 disabled:∀i,(s'.rule i).disabled=(s.rule i).disabled
 everywhere:∀i,(s'.rule i).everywhere=(s.rule i).everywhere
 space:∀i,(s'.rule i).space=(s.rule i).space
lemma RuleSet.SameConditions.refl (s:RuleSet):s.SameConditions s:=
 ⟨rfl,rfl,rfl,rfl,fun _=>rfl,fun _=>rfl,fun _=>rfl⟩
end PatternScan
namespace PatternScan.Condition
variable {S T:Type}{f:S→T}{e:Environment S}{e':Environment T}
def State.map (f:S→T)(s:State S):State T:=
 ⟨s.ip,s.stack,s.slots,s.matched,s.unsatisfied,f s.world⟩
lemma State.map_ip (f:S→T)(s:State S):(s.map f).ip=s.ip:=rfl
lemma State.map_stack (f:S→T)(s:State S):(s.map f).stack=s.stack:=rfl
lemma State.map_world (f:S→T)(s:State S):(s.map f).world=f s.world:=rfl
lemma State.map_jumpIf (f:S→T)(s:State S)(c:Bool)(d:Int):(s.map f).jumpIf c d=(s.jumpIf c d).map f:=by cases c<;>rfl
def Outcome.map (f:S→T):Outcome S→Outcome T
 | .running s=>.running (s.map f)
 | .halted s=>.halted (s.map f)
 | .failed code s=>.failed code (s.map f)
 | .stuck s=>.stuck (s.map f)
inductive Fails (e:Environment S):ResultCode→Prop where
 | overflow:Fails e .execStackOverflow
 | field:Fails e .invalidFieldName
 | fatal:Fails e .internalFatalError
 | pattern (address:Nat)(flags:Regex.RunFlags)(input:Regex.Input):
  Fails e (Regex.run e.set.regexCode address flags input).code
 | load (name:String)(w:S):Fails e (e.world.load name w).1
 | call {b:Builtin}{cs:List Cell}{w:S}{code:ResultCode}
  (h:(e.world.call b cs w).1=.error code):Fails e code
def Outcome.Bounded (e:Environment S):Outcome S→Prop
 | .failed code _=>Fails e code
 | _=>True

/-- One outcome is the other behind a map of the worlds, and it is no failure but those of conditions. -/
def Outcome.Carried (e:Environment S)(f:S→T)(x:Outcome S)(x':Outcome T):Prop:=
 x'=x.map f∧x.Bounded e
lemma refusal_fails {i:Instruction}{o:List Cell}{w w':S}{code:ResultCode}
 (h:refusal e i o w=some (code,w')):Fails e code:=by
 unfold refusal at h
 split at h
 ·cases h
  exact .field
 ·split at h
  ·cases h
  ·split at h
   ·cases h
   ·next hc=>
    cases h
    exact .call (congrArg Prod.fst hc)
 ·dsimp only at h
  split at h
  ·cases h
  ·cases h
   exact .pattern _ _ _
 ·cases h

/-- The second environment is the first one behind a map of the worlds, but for the entry point if no instruction asks
for it. -/
structure Environment.Maps (e:Environment S)(e':Environment T)(f:S→T):Prop where
 set:e.set.SameConditions e'.set
 findings:e'.findings=e.findings
 fileSize:e'.fileSize=e.fileSize
 entryPoint:Instruction.entryPoint∈e.set.code→e'.entryPoint=e.entryPoint
 capacity:e'.capacity=e.capacity
 object? : ∀name w,e'.world.object? name (f w)=e.world.object? name w
 load:∀name w,e'.world.load name (f w)=(e.world.load name w).map id f
 call:∀b cs w,e'.world.call b cs (f w)=(e.world.call b cs w).map id f
 read:∀kind o w,e'.world.read kind o (f w)=(e.world.read kind o w).map id f
namespace Environment.Maps
open State
lemma refl (e:Environment S):e.Maps e id:=
 ⟨.refl _,rfl,rfl,fun _=>rfl,rfl,fun _ _=>rfl,fun _ _=>rfl,fun _ _ _=>rfl,fun _ _ _=>rfl⟩
lemma branch {p:Prop}[Decidable p]{x y:Outcome S}{x' y':Outcome T}(hx:x.Carried e f x')
 (hy:y.Carried e f y'):(if p then x else y).Carried e f (if p then x' else y'):=by
 split
 ·exact hx
 ·exact hy
lemma push (h:e.Maps e' f)(c:Cell)(s:State S):(s.push e c).Carried e f ((s.map f).push e' c):=by
 simp only[State.push,h.capacity]
 exact branch ⟨rfl,trivial⟩ ⟨rfl,.overflow⟩
lemma pop {k:Cell→State S→Outcome S}{k':Cell→State T→Outcome T}(s:State S)
 (hk:∀c s,(k c s).Carried e f (k' c (s.map f))):
 (s.pop k).Carried e f ((s.map f).pop k'):=by
 unfold State.pop
 rw[map_stack]
 cases s.stack.back? with
 | none=>exact⟨rfl,trivial⟩
 | some c=>exact hk c {s with stack:=s.stack.pop}
lemma popSet {k:List Cell→Cell→State S→Outcome S}{k':List Cell→Cell→State T→Outcome T}(s:State S)
 (hk:∀cs c s,(k cs c s).Carried e f (k' cs c (s.map f))):
 (s.popSet k).Carried e f ((s.map f).popSet k'):=by
 unfold State.popSet
 rw[map_stack]
 cases popMembers s.stack s.stack.size [] with
 | none=>exact⟨rfl,trivial⟩
 | some r=>exact pop {s with stack:=r.2} (hk r.1)
lemma take {k:List Cell→State S→Outcome S}{k':List Cell→State T→Outcome T}(s:State S)
 (n:Nat)(hk:∀cs s,(k cs s).Carried e f (k' cs (s.map f))):
 (s.take n k).Carried e f ((s.map f).take n k'):=by
 induction n generalizing s k k' with
 | zero=>exact hk [] s
 | succ n ih=>exact pop s fun c s=>ih s fun cl=>hk (cl++[c])
lemma objectResult (h:e.Maps e' f)(i:Instruction)(o:List Cell)(w:S):
 objectResult e' i o (f w)=(objectResult e i o w).map (Prod.map id f):=by
 unfold Condition.objectResult
 split
 ·rw[h.object?,map_map]
  rfl
 ·split
  ·rfl
  ·split
   ·rw[map_map]
    rfl
   ·rfl
 ·split
  ·rfl
  ·split<;>rfl
 ·split
  ·rfl
  ·split<;>rfl
 ·split
  ·rfl
  split
  ·split
   ·rfl
   ·rw[h.call]
    rcases e.world.call _ _ w with⟨code|result,w⟩<;>rfl
  ·rfl
 ·split
  ·rfl
  ·split
   ·rw[map_map]
    rfl
   ·rfl
 ·rfl
lemma refusal (h:e.Maps e' f)(i:Instruction)(o:List Cell)(w:S):
 refusal e' i o (f w)=(refusal e i o w).map (Prod.map id f):=by
 unfold Condition.refusal
 split
 ·rfl
 ·split
  ·rfl
  ·rw[h.call]
   rcases e.world.call _ _ w with⟨code|result,w⟩<;>rfl
 ·rw[matcherRun_congr h.set.regexCode,apply_ite (Option.map (Prod.map id f))]
  rfl
 ·rfl
lemma result (h:e.Maps e' f)(m:Array Bool)(i:Instruction)
 (hi:i=.entryPoint→e'.entryPoint=e.entryPoint)(operands:List Cell)(w:S):
 result e' m i operands (f w)=(result e m i operands w).map (Prod.map id f):=by
 have ha:atomResult e' m i=atomResult e m i:=by
  cases i<;>simp only[atomResult,h.set.disabled,h.fileSize]
  rw[hi rfl]
 have hv:valueResult e' i operands=valueResult e i operands:=
  valueResult_congr h.set.regexCode i operands
 unfold Condition.result
 split
 ·exact h.objectResult i operands w
 ·rw[h.findings,map_map]
  rfl
 split
 ·rw[h.read]
  rfl
 ·rw[ha,map_map]
  rfl
 ·rw[hv,map_map]
  rfl
lemma operate (h:e.Maps e' f)(s:State S)(i:Instruction)(n:Nat)(hi:i=.entryPoint→e'.entryPoint=e.entryPoint):
 (operate e s i n).Carried e f (operate e' (s.map f) i n):=by
 refine take s n fun o s=>?_
 rw[map_world,show (s.map f).matched=s.matched from rfl,h.result s.matched i hi,h.refusal]
 cases Condition.result e s.matched i o s.world with
 | some p=>exact h.push p.1 {s with world:=p.2}
 | none=>
  cases hr:Condition.refusal e i o s.world with
  | some p=>exact⟨rfl,refusal_fails hr⟩
  | none=>exact⟨rfl,trivial⟩
lemma operateOnSet (h:e.Maps e' f)(s:State S)(i:Instruction)(n:Nat):
 (operateOnSet e s i n).Carried e f (operateOnSet e' (s.map f) i n):=by
 refine take s n fun p s=>popSet s fun m q s=>?_
 rw[h.findings]
 split
 ·exact h.push _ s
 ·exact⟨rfl,trivial⟩
lemma startIterator (h:e.Maps e' f)(s:State S)(k:IteratorKind):
 (startIterator e s k).Carried e f (startIterator e' (s.map f) k):=by
 cases k<;>simp only[Condition.startIterator]
 case array | dictionary=>exact pop s fun _ s=>h.push _ _
 case range=>exact pop s fun _ s=>pop s fun _ s=>h.push _ _
 case integers | texts=>exact pop s fun _ s=>take s _ fun _ s=>h.push _ s
 case strings=>exact pop s fun _ s=>take s _ fun _ s=>pop s fun _ s=>h.push _ s
lemma nextItem (h:e.Maps e' f)(s:State S):(nextItem e s).Carried e f (nextItem e' (s.map f)):=by
 refine pop s fun c s=>?_
 cases c with
 | iteration it=>
  simp only[h.capacity]
  refine branch ⟨rfl,.overflow⟩ ?_
  cases it.next<;>exact⟨rfl,trivial⟩
 | _=>exact⟨rfl,trivial⟩
lemma stepControl (h:e.Maps e' f)(s:State S)(i:Instruction):
 (stepControl e s i).Carried e f (stepControl e' (s.map f) i):=by
 cases i<;>simp only[Condition.stepControl]<;>try exact⟨rfl,trivial⟩
 case pushSlot n=>exact branch (h.push _ {s with ip:=s.ip+1}) ⟨rfl,.fatal⟩
 case popSlot n=>exact branch (pop {s with ip:=s.ip+1} fun _ _=>⟨rfl,trivial⟩) ⟨rfl,.fatal⟩
 case clearSlot n | incrementSlot n=>exact branch ⟨rfl,trivial⟩ ⟨rfl,.fatal⟩
 case addToSlot n=>
  refine branch (pop {s with ip:=s.ip+1} fun c s=>?_) ⟨rfl,.fatal⟩
  exact branch ⟨rfl,trivial⟩ ⟨rfl,trivial⟩
 case jumpIfFalse d | jumpIfTrue d=>
  simp only[map_jumpIf]
  rw[map_stack]
  cases s.stack.back?<;>exact⟨rfl,trivial⟩
 case popAndJumpIfTrue d=>
  refine pop s fun c s=>?_
  rw[map_jumpIf]
  exact⟨rfl,trivial⟩
 case openRule index d=>
  simp only[h.set.disabled,h.set.everywhere,h.set.space,h.findings,map_jumpIf]
  exact branch ⟨rfl,trivial⟩ ⟨rfl,trivial⟩
 case closeRule index=>
  refine pop {s with ip:=s.ip+1} fun c s=>?_
  simp only[h.set.everywhere,h.set.space]
  exact branch ⟨rfl,trivial⟩ (branch ⟨rfl,trivial⟩ (branch ⟨rfl,trivial⟩ ⟨rfl,trivial⟩))
 case loopCondition=>
  refine pop {s with ip:=s.ip+1} fun q s=>pop s fun hits s=>pop s fun last s=>?_
  obtain⟨heq,hf⟩:=h.push (.ofBool (goesOn q hits last)) s
  rw[heq]
  cases hs:State.push e (.ofBool (goesOn q hits last)) s<;>rw[hs]at hf
  case running s=>exact h.push _ s
  all_goals exact⟨rfl,hf⟩
 case pop=>exact pop {s with ip:=s.ip+1} fun _ _=>⟨rfl,trivial⟩
 case toFloat depth=>exact branch ⟨rfl,trivial⟩ ⟨rfl,.fatal⟩
 case startIterator kind=>exact h.startIterator {s with ip:=s.ip+1} kind
 case nextItem=>exact h.nextItem {s with ip:=s.ip+1}
 case importModule name=>
  have hf:=Fails.load (e:=e) name s.world
  rw[map_world,h.load]
  revert hf
  obtain⟨cd,w⟩:=e.world.load name s.world
  cases cd<;>first | exact fun _=>⟨rfl,trivial⟩ | exact fun h=>⟨rfl,h⟩
 case halt=>exact branch ⟨rfl,trivial⟩ ⟨rfl,trivial⟩
lemma step (h:e.Maps e' f)(s:State S):(step e s).Carried e f (step e' (s.map f)):=by
 unfold Condition.step
 rw[h.set.code,map_ip]
 cases hi:e.set.code[s.ip]? with
 | none=>exact⟨rfl,trivial⟩
 | some i=>
  dsimp only
  split
  ·refine h.operate {s with ip:=s.ip+1} i _ fun heq=>h.entryPoint ?_
   exact heq▸Array.mem_of_getElem? hi
  ·exact h.operateOnSet {s with ip:=s.ip+1} i _
  ·exact h.stepControl s i
lemma run (h:e.Maps e' f)(n:Nat)(s:State S):run e' n (s.map f)=(run e n s).map id (map f):=by
 induction n generalizing s with
 | zero=>rfl
 | succ n ih=>
  simp only[Condition.run,(h.step s).1]
  cases Condition.step e s with
  | running s=>exact ih s
  | halted s=>rfl
  | failed _ s=>rfl
  | stuck s=>rfl
lemma evaluate (h:e.Maps e' f)(w:S):
 evaluate e' (f w)=(evaluate e w).map id (map f):=by
 unfold Condition.evaluate
 rw[h.set.rules,h.set.spaces]
 exact h.run stepLimit
  { matched:=Array.replicate e.set.rules.size false
    unsatisfied:=Array.replicate e.set.spaces.size false
    world:=w }
end Environment.Maps
lemma run_fails (n:Nat)(s:State S):(run e n s).1=.success∨Fails e (run e n s).1:=by
 induction n generalizing s with
 | zero=>exact .inr .fatal
 | succ n ih=>
  have hst:=((Maps.refl e).step s).2
  unfold run
  cases hs:step e s with
  | running s=>exact ih s
  | halted s=>exact .inl rfl
  | failed _ s=>exact .inr (by simpa[hs,Outcome.Bounded]using hst)
  | stuck s=>exact .inr .fatal

/-! ## What the world keeps -/
structure World.Keeps (world:World S)(P:S→Prop):Prop where
 load:∀name w,P w→P (world.load name w).2
 call:∀b cs w,P w→P (world.call b cs w).2
 read:∀kind o w,P w→P (world.read kind o w).2
variable {P:S→Prop}
def Environment.restrict (e:Environment S)(h:e.world.Keeps P):Environment {w // P w}:=
 { set:=e.set
   findings:=e.findings
   fileSize:=e.fileSize
   entryPoint:=e.entryPoint
   capacity:=e.capacity
   world:=
    { object?:=fun name w=>e.world.object? name w.1
      load:=fun name w=>((e.world.load name w.1).1,⟨_,h.load name w.1 w.2⟩)
      call:=fun b cs w=>((e.world.call b cs w.1).1,⟨_,h.call b cs w.1 w.2⟩)
      read:=fun kind o w=>((e.world.read kind o w.1).1,⟨_,h.read kind o w.1 w.2⟩) } }
lemma Environment.restrict_maps (h:e.world.Keeps P):(e.restrict h).Maps e Subtype.val:=
 ⟨.refl _,rfl,rfl,fun _=>rfl,rfl,fun _ _=>rfl,fun _ _=>rfl,fun _ _ _=>rfl,fun _ _ _=>rfl⟩
lemma evaluate_keeps (h:e.world.Keeps P){w:S}(hw:P w):P (evaluate e w).2.world:=by
 rw[(restrict_maps h).evaluate ⟨w,hw⟩]
 exact (evaluate (e.restrict h) ⟨w,hw⟩).2.world.2
lemma evaluate_map (h:e.world.Keeps P)(hm:(e.restrict h).Maps e' fun w=>f w.1){w:S}
 (hw:P w):evaluate e' (f w)=(evaluate e w).map id (State.map f):=by
 rw[(restrict_maps h).evaluate ⟨w,hw⟩]
 exact hm.evaluate ⟨w,hw⟩
end PatternScan.Condition
