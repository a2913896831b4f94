import Mathlib
import PatternScan.Regex.Machine
/-! A walk is a sequence of moves of a thread alone, through branches, jumps and loops and past the
instructions at which it waits. -/
namespace PatternScan.Regex
variable {c:Code}{t w u:Thread}{i j k:Nat}
def Code.branch? (c:Code)(x:Nat):Option Nat:=
 match c.fetch x with
 | .split _ id _=>some id
 | _=>none
lemma Code.branch?_eq_some {x id:Nat}:c.branch? x=some id↔∃f d,c.fetch x=.split f id d:=by
 rw[branch?]
 grind
namespace Thread
def count (t:Thread):Nat:=t.taken.getD 0
def ways (c:Code)(t:Thread):List Thread:=
 let i:=c.fetch t.address
 let next:=t.address+i.size
 match i with
 | .split _ _ d=>[{t with address:=next},{t with address:=c.target t.address d}]
 | .jump d=>[{t with address:=c.target t.address d}]
 | .repeatStart _ lo _ d=>
  {t with address:=next,counters:=0::t.counters} ::
    if lo=0 then [{t with address:=c.target t.address d}] else []
 | .repeatEnd _ lo hi d=>
  let n:=t.counters.headD 0+1
  (if n<lo∨n<hi then
   [{t with address:=c.target t.address d,counters:=n::t.counters.tail}] else []) ++
  if n<lo then [] else [{t with address:=next,counters:=t.counters.tail}]
 | .gap lo _ _=>if t.count<lo then [] else [{t with address:=next,taken:=none}]
 | _=>[]
def waits (c:Code)(t:Thread):Option Thread:=
 match c.fetch t.address with
 | .split _ _ _ | .jump _ | .repeatStart _ _ _ _ | .repeatEnd _ _ _ _=>none
 | .gap lo hi _=>if t.count<lo∨t.count<hi then some {t with taken:=some (t.count+1)}
  else none
 | _=>some t
lemma waits_gap {lo hi:Nat}{g:Bool}(hf:c.fetch t.address=.gap lo hi g):
 t.waits c=some w↔(t.count<lo∨t.count<hi)∧w={t with taken:=some (t.count+1)}:=by
 rw[waits,hf]
 by_cases h:t.count<lo∨t.count<hi
 ·simp[eq_comm]
 ·simp[h]
end Thread
open Machine (Verdict advance)
/-- One move of a thread at a position: on its way, or past the instruction at which it waits. -/
inductive Move (c:Code)(v:Nat→Inst→Verdict):Thread→Nat→Thread→Nat→Prop
 | on {t u:Thread}{i:Nat}:u∈t.ways c→Move c v t i u i
 | read {t w:Thread}{i:Nat}:t.waits c=some w→v i (c.fetch t.address)=.read→
  Move c v t i (advance w (c.fetch t.address)) (i+1)
 | pass {t w:Thread}{i:Nat}:t.waits c=some w→v i (c.fetch t.address)=.pass→
  Move c v t i (advance w (c.fetch t.address)) i
inductive Walk (c:Code)(v:Nat→Inst→Verdict):Nat→Thread→Nat→Thread→Nat→Prop
 | refl {t:Thread}{i:Nat}:Walk c v 0 t i t i
 | step {n:Nat}{t u w:Thread}{i j k:Nat}:Move c v t i u j→Walk c v n u j w k→
  Walk c v (n+1) t i w k
namespace Walk
variable {v:Nat→Inst→Verdict}
lemma trans {m n:Nat}(h:Walk c v m t i u j)
 (h':Walk c v n u j w k):Walk c v (m+n) t i w k:=by
 induction h with
 | refl=>rwa[zero_add]
 | step hm _ ih=>
  rw[add_right_comm]
  exact .step hm (ih h')
end Walk
def Reaches (c:Code)(v:Nat→Inst→Verdict)(t:Thread)(i:Nat)(u:Thread)(j:Nat):
 Prop:=
 ∃n,Walk c v n t i u j
namespace Reaches
variable {v:Nat→Inst→Verdict}
lemma refl:Reaches c v t i t i:=⟨0,.refl⟩
lemma trans (h:Reaches c v t i u j)(h':Reaches c v u j w k):Reaches c v t i w k:=by
 obtain⟨m,hm⟩:=h
 obtain⟨n,hn⟩:=h'
 exact⟨m+n,hm.trans hn⟩
lemma head (h:Move c v t i u j)(h':Reaches c v u j w k):Reaches c v t i w k:=by
 obtain⟨n,hn⟩:=h'
 exact⟨n+1,.step h hn⟩
lemma on (h:u∈t.ways c)(h':Reaches c v u i w k):Reaches c v t i w k:=
 head (.on h) h'
end Reaches
end PatternScan.Regex