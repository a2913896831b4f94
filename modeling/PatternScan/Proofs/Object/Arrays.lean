import PatternScan.Proofs.Condition.Meaning
/-! An array keeps what was set at each index, whatever was set before and in which order. -/
namespace PatternScan
open List Object
namespace Object
def setItems (items:Array (Option Object))(sets:List (Nat×Object)):Array (Option Object):=
 sets.foldl (fun items (i,o)=>setItem items i o) items
def kept (items:Array (Option Object))(sets:List (Nat×Object))(i:Int):Option Object:=
 if i<0 then none
 else ((sets.reverse.find? fun p=>p.1=i).map Prod.snd).or (items[i.toNat]?).join
lemma join_getElem?_setItem (it:Array (Option Object))(i j:Nat)(o:Object):
 ((setItem it i o)[j]?).join=if i=j then some o else (it[j]?).join:=by
 unfold setItem
 split
 ·next hlt=>
  rw[Array.getElem?_setIfInBounds]
  split
  ·simp
  ·rfl
 next hle=>
 -- The it before the new one are old ones or were never set.
 have hs:(it++Array.replicate (i-it.size) none).size=i:=by
  rw[Array.size_append,Array.size_replicate]
  omega
 grind
lemma item?_setItems (pt:Object)(it:Array (Option Object))(st:List (Nat×Object))
 (i:Int):(array pt (setItems it st)).item? i=kept it st i:=by
 unfold item? kept
 split
 ·rfl
 next hi=>
 induction st using reverseRecOn with
 | nil=>rfl
 | append_singleton st p ih=>
  have hs:setItems it (st++[p])=setItem (setItems it st) p.1 p.2:=by simp[setItems]
  have hl:=join_getElem?_setItem (setItems it st) p.1 i.toNat p.2
  change ((setItems it st)[i.toNat]?).join=_ at ih
  change ((setItems it (st++[p]))[i.toNat]?).join=_
  rw[hs,hl,ih,reverse_append,reverse_singleton,singleton_append]
  by_cases hp:p.1=i.toNat
  ·grind
  ·have hpi:(p.1:Int)≠i:=by omega
   rw[if_neg hp,find?_cons_of_neg (by simpa using hpi)]
end Object
namespace Condition
variable {S:Type}{e:Environment S}{s:State S}
/-- The machine gives what an array keeps at the index modulo 2^32, and an undefined value if it keeps
nothing there. That is the index itself if it fits into 32 bits. -/
theorem item_kept (hcode:e.set.code[s.ip]? = some .item) (stack:Array Cell) (pattern:Object)
 (items:Array (Option Object)) (sets:List (Nat × Object)) (index:Int64)
 (hstack:s.stack=(stack.push (.object (.array pattern (setItems items sets)))).push (.integer index))
 (hroom:stack.size < e.capacity) :
 step e s = .running { s with
  ip := s.ip+1
  stack := stack.push (Iteration.cellOf (kept items sets (index.toInt.bmod (2^32)))) } ∧
 (-2^31 ≤ index.toInt → index.toInt < 2^31 → index.toInt.bmod (2^32) = index.toInt) := by
 refine⟨?_,fun hlo hhi=>Int.bmod_eq_of_le (by omega) (by omega)⟩
 rw[←Int64.toInt_toInt32,←item?_setItems pattern]
 have hres:result e s.matched .item
  [.object (.array pattern (setItems items sets)),.integer index] s.world=
  some (Iteration.cellOf (item? (.array pattern (setItems items sets)) index.toInt32.toInt),
   s.world):=by
  simp only[result,Instruction.group,objectResult]
  split
  ·next hundef=>
   have hidx:index=undefinedInteger∨0x600000000000=undefinedInteger:=by
    simpa[Cell.isUndefined,Cell.word]using hundef
   rw[hidx.resolve_right (by decide)]
   rfl
  ·rfl
 simp only[step,hcode,Instruction.operandCount,operate,State.take,State.pop,hstack,
  Array.back?_push,Array.pop_push,nil_append,cons_append,hres]
 exact if_pos hroom
def fetching:Environment Unit:=
 {Environment.sole (.integer 1) oneFound with set:={(default:RuleSet) with code:=#[.item]}}
def State.asking (sets:List (Nat×Object))(index:Int64):State Unit where
 stack:=#[.object (.array .noInteger (setItems #[] sets)),.integer index]
 matched:=#[]
 unsatisfied:=#[]
 world:=()
def manyTimes:List (Nat×Object):=[(5,.integer 1),(0,.integer 2),(5,.integer 3)]
theorem item_kept_again : step fetching (.asking manyTimes 5) =
 .running { State.asking manyTimes 5 with ip := 1,stack := #[.object (.integer 3)] }:=
 (@item_kept _ fetching (.asking manyTimes 5) rfl #[] .noInteger #[] manyTimes 5 rfl (by decide)).1

/-- An array of six items is asked for one far behind them, and gives the last one. -/
theorem item_beyond_length : (setItems #[] [(5,.integer 3)]).size=6∧
 step fetching (.asking [(5,.integer 3)] 4294967301) =
  .running { State.asking [(5,.integer 3)] 4294967301 with ip := 1,stack := #[.object (.integer 3)] }:=
 ⟨rfl,rfl⟩
end Condition
end PatternScan
