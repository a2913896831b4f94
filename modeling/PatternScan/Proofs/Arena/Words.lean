import Mathlib.Tactic.Ring
import PatternScan.Arena.Stream
/-! Words at places that have no byte in common do not disturb each other. -/
open Array
namespace PatternScan
variable {n v k p:Nat}{c:Bytes}(d:Bytes)
namespace Bytes
variable {b:Bytes}{i:Nat}
lemma byteAt_of_lt (h:i<b.size):b.byteAt i=b[i]:=dif_pos h
lemma byteAt_of_le (h:b.size ≤ i):b.byteAt i=0:=
 dif_neg (not_lt.2 h)
lemma ext_byteAt (hs:b.size=c.size)(h:∀i<b.size,b.byteAt i=c.byteAt i):b=c:=by
 refine ByteArray.ext_getElem hs fun i hb hc=>?_
 rw[←byteAt_of_lt hb,←byteAt_of_lt hc,h i hb]
lemma byteAt_append (b c:Bytes)(i:Nat):
 (b++c).byteAt i=if i<b.size then b.byteAt i else c.byteAt (i-b.size):=by
 by_cases h:i<(b++c).size
 ·rw[byteAt_of_lt h]
  split
  ·next hb=>rw[byteAt_of_lt hb,ByteArray.getElem_append_left hb]
  ·next hb=>
   rw[ByteArray.size_append]at h
   rw[byteAt_of_lt (by omega),ByteArray.getElem_append_right (by omega)]
 ·rw[ByteArray.size_append]at h
  rw[byteAt_of_le (by rw[ByteArray.size_append];omega),if_neg (by omega),byteAt_of_le (by omega)]
lemma byteAt_push (b:Bytes)(c:UInt8)(i:Nat):
 byteAt (b.push c) i=if i=b.size then c else b.byteAt i:=by
 have hs:(b.push c).size=b.size+1:=ByteArray.size_push
 rcases Nat.lt_trichotomy i b.size with h|rfl|h
 ·rw[if_neg (by omega),byteAt_of_lt h,byteAt_of_lt (by omega)]
  exact getElem_push_lt h
 ·rw[if_pos rfl,byteAt_of_lt (by omega)]
  exact getElem_push_eq
 ·rw[if_neg (by omega),byteAt_of_le (by omega),byteAt_of_le (by omega)]
lemma size_setByte (b:Bytes)(i:Nat)(c:UInt8):(b.setByte i c).size=b.size:=by
 unfold setByte
 split
 ·exact size_set _
 ·rfl
lemma byteAt_setByte (b:Bytes)(i j:Nat)(c:UInt8):
 (b.setByte i c).byteAt j=if j=i∧i<b.size then c else b.byteAt j:=by
 by_cases hj:j<b.size
 ·rw[byteAt_of_lt (by rwa[size_setByte])]
  by_cases hi:i<b.size
  ·simp only[setByte,hi,and_true]
   refine (getElem_set ..).trans ?_
   rw[byteAt_of_lt hj]
   exact if_congr eq_comm rfl rfl
  ·simp only[setByte,hi,and_false]
   exact (byteAt_of_lt hj).symm
 ·rw[byteAt_of_le (by rw[size_setByte];omega),if_neg (by omega),byteAt_of_le (by omega)]
lemma le_congr {j:Nat}(h:∀k<n,b.byteAt (i+k)=c.byteAt (j+k)):b.le i n=c.le j n:=by
 induction n generalizing i j with
 | zero=>rfl
 | succ n ih=>
  have hf:b.byteAt i=c.byteAt j:=h 0 (by omega)
  have hr:b.le (i+1) n=c.le (j+1) n:=ih fun k hk=>by simpa[add_assoc,add_comm 1]using h (k+1) (by omega)
  rw[le,le,hf,hr]
lemma le_eq_mod (h:∀k<n,b.byteAt (i+k)=(v/256^k).toUInt8):b.le i n=v%256^n:=by
 induction n generalizing i v with
 | zero=>simp[le,Nat.mod_one]
 | succ n ih=>
  have hf:(b.byteAt i).toNat=v%256:=by
   have h:=h 0 (by omega)
   rw[add_zero,pow_zero,Nat.div_one]at h
   rw[h]
   exact UInt8.toNat_ofNat'
  have hr:b.le (i+1) n=v/256%256^n:=ih fun k hk=>by
   rw[add_assoc,add_comm 1,h (k+1) (by omega),Nat.pow_succ',Nat.div_div_eq_div_mul]
  rw[le,hf,hr,Nat.pow_succ',Nat.mod_mul]
lemma le_digit (b:Bytes)(h:k<n):(b.le i n/256^k).toUInt8=b.byteAt (i+k):=by
 induction n generalizing i k with
 | zero=>omega
 | succ n ih=>
  have hb:=(b.byteAt i).toNat_lt
  cases k with
  | zero=>
   have hm:((b.byteAt i).toNat+256*b.le (i+1) n).toUInt8.toNat=
    ((b.byteAt i).toNat+256*b.le (i+1) n)%256:=UInt8.toNat_ofNat'
   rw[pow_zero,Nat.div_one,le]
   apply UInt8.toNat_inj.1
   rw[hm,Nat.add_mul_mod_self_left,Nat.mod_eq_of_lt hb]
   rfl
  | succ k=>
   have hdi:((b.byteAt i).toNat+256*b.le (i+1) n)/256=b.le (i+1) n:=by omega
   rw[Nat.pow_succ',←Nat.div_div_eq_div_mul,le,hdi,ih (by omega),add_assoc,add_comm 1]
end Bytes
namespace Arena
open Bytes
variable {o:Nat}
lemma size_setLe (o v n:Nat):(setLe d o v n).size=d.size:=by
 induction n generalizing d o v with
 | zero=>rfl
 | succ n ih=>rw[setLe,ih,size_setByte]
lemma byteAt_setLe (o v n j:Nat):(setLe d o v n).byteAt j=
 if o≤j∧j<o+n∧j<d.size then (v/256^(j-o)).toUInt8 else d.byteAt j:=by
 induction n generalizing d o v with
 | zero=>rw[setLe,if_neg (by omega)]
 | succ n ih=>
  rw[setLe,ih,size_setByte,byteAt_setByte]
  rcases Nat.lt_trichotomy j o with h|rfl|h
  ·rw[if_neg (by omega),if_neg (by omega),if_neg (by omega)]
  ·rw[if_neg (by omega),Nat.sub_self,Nat.pow_zero,Nat.div_one]
   exact if_congr (by omega) rfl rfl
  ·rw[show j-o=j-(o+1)+1 by omega,Nat.pow_succ',←Nat.div_div_eq_div_mul,if_neg (show ¬(j=o∧o<d.size) by omega)]
   exact if_congr (by omega) rfl rfl
lemma setLe_setLe (o v w n:Nat):setLe (setLe d o v n) o w n=setLe d o w n:=by
 refine ext_byteAt (by simp only[size_setLe]) fun j _=>?_
 simp only[byteAt_setLe,size_setLe]
 split<;>rfl
lemma setLe_comm (v w:Nat)(h:o+n≤p∨p+n≤o):
 setLe (setLe d o v n) p w n=setLe (setLe d p w n) o v n:=by
 refine ext_byteAt (by simp only[size_setLe]) fun j _=>?_
 simp only[byteAt_setLe,size_setLe]
 split
 ·rw[if_neg (by omega)]
 ·rfl
lemma setLe_le (o n:Nat):setLe d o (d.le o n) n=d:=by
 refine ext_byteAt (size_setLe ..) fun j _=>?_
 rw[byteAt_setLe]
 split
 ·rw[le_digit d (by omega),show o+(j-o)=j by omega]
 ·rfl
lemma le_setLe {d:Bytes}(v:Nat)(h:o+n≤d.size):(setLe d o v n).le o n=v%256^n:=
 le_eq_mod fun k hk=>by rw[byteAt_setLe,if_pos (by omega),Nat.add_sub_cancel_left]
lemma le_setLe_apart (v:Nat)(h:o+n≤p∨p+n≤o):(setLe d o v n).le p n=d.le p n:=
 le_congr fun k hk=>by rw[byteAt_setLe,if_neg (by omega)]
attribute [local irreducible] setLe le

/-! ## Places -/
def Ref.Apart (r q:Ref):Prop:=
 r.buffer=q.buffer → r.offset+8≤q.offset∨q.offset+8≤r.offset
lemma Ref.Apart.symm {r q:Ref}(h:r.Apart q):q.Apart r:=fun e=>(h e.symm).symm
def Holds (a:Arena)(r:Ref):Prop:=r.offset+8≤(a.bufferAt r.buffer).data.size
variable {a:Arena}{r q:Ref}{w:Nat}
lemma bufferAt_modify (a:Arena)(i:Nat){f:Buffer→Buffer}(h:k<a.buffers.size∨f noBuffer=noBuffer):
 {a with buffers:=a.buffers.modify k f}.bufferAt i=
   if k=i then f (a.bufferAt i) else a.bufferAt i:=by
 simp only[bufferAt,getD_eq_getD_getElem?,getElem?_modify]
 grind
lemma bufferAt_store64 (a:Arena)(r:Ref)(v i:Nat):(a.store64 r v).bufferAt i=
 if r.buffer=i then {a.bufferAt i with data:=setLe (a.bufferAt i).data r.offset v 8}
 else a.bufferAt i:=by
 refine bufferAt_modify a i (.inr ?_)
 rw[Buffer.mk.injEq]
 exact⟨rfl,rfl,ByteArray.size_eq_zero_iff.1 (size_setLe ..)⟩
lemma ext_bufferAt {b:Arena}(hc:a.count=b.count)(hi:a.initial=b.initial)
 (hp:a.relocations=b.relocations)(hs:a.buffers.size=b.buffers.size)
 (h:∀i,a.bufferAt i=b.bufferAt i):a=b:=by
 have hbu:a.buffers=b.buffers:=ext hs fun i ha hb=>by simpa[bufferAt,getD_eq_getD_getElem?,ha,hb]using h i
 cases a
 simp_all
lemma store64_store64 (a:Arena)(r:Ref)(v w:Nat):(a.store64 r v).store64 r w=a.store64 r w:=by
 refine ext_bufferAt rfl rfl rfl (by simp[store64]) fun i=>?_
 simp only[bufferAt_store64]
 split
 ·rw[setLe_setLe]
 ·rfl
lemma store64_comm (h:r.Apart q):(a.store64 r v).store64 q w=(a.store64 q w).store64 r v:=by
 refine ext_bufferAt rfl rfl rfl (by simp[store64]) fun i=>?_
 simp only[bufferAt_store64]
 by_cases hr:r.buffer=i<;>by_cases hq:q.buffer=i<;>simp only[hr,hq,if_true,if_false]
 rw[setLe_comm _ _ _ (h (hr.trans hq.symm))]
lemma store64_load64 (a:Arena)(r:Ref):a.store64 r (a.load64 r)=a:=by
 refine ext_bufferAt rfl rfl rfl (by simp[store64]) fun i=>?_
 rw[bufferAt_store64]
 split
 ·next h=>rw[load64,h,setLe_le]
 ·rfl
lemma load64_store64 (h:a.Holds r):(a.store64 r v).load64 r=v%256^8:=by
 rw[load64,bufferAt_store64,if_pos rfl,le_setLe v h]
lemma load64_store64_apart (h:r.Apart q):(a.store64 r v).load64 q=a.load64 q:=by
 rw[load64,load64,bufferAt_store64]
 split
 ·next hr=>rw[le_setLe_apart _ v (h hr)]
 ·rfl
end Arena
end PatternScan