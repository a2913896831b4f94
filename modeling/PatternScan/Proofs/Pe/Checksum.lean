import Mathlib.Data.Nat.ModEq
import Mathlib.Algebra.BigOperators.Group.List.Basic
import PatternScan.Module.Pe
import PatternScan.Proofs.Arena.Words
import PatternScan.Proofs.Pe.Resources
/-! The checksum adds words of four bytes with the carry at the other end, which is the same as to add words of two
bytes in this way. -/
open List
namespace PatternScan
open Pe.File
variable {m n:Nat}{d:Bytes}
lemma Bytes.le_lt (b:Bytes)(i n:Nat):b.le i n<256^n:=by
 induction n generalizing i with
 | zero=>exact Nat.one_pos
 | succ n ih=>
  have hb:=(b.byteAt i).toNat_lt
  have hr:=ih (i+1)
  rw[le,Nat.pow_succ']
  omega
namespace Pe
/-- The number between 1 and `m` that leaves the same remainder, or zero for zero. -/
def residue (m n:Nat):Nat:=if n=0 then 0 else (n-1)%m+1
lemma residue_eq_zero:residue m n=0↔n=0:=by
 unfold residue
 split<;>simp[*]
lemma residue_modEq (m n:Nat):residue m n≡n [MOD m]:=by
 unfold residue
 split
 ·next h=>rw[h]
 ·next h=>
  have hm:=(Nat.mod_modEq (n-1) m).add_right 1
  rwa[Nat.sub_add_cancel (Nat.one_le_iff_ne_zero.2 h)]at hm
lemma residue_congr {a b:Nat}(h:a≡b [MOD m])(hz:a=0↔b=0):residue m a=residue m b:=by
 unfold residue
 by_cases ha:a=0
 ·rw[if_pos ha,if_pos (hz.1 ha)]
 ·have hb:=mt hz.2 ha
  rw[if_neg ha,if_neg hb]
  refine congrArg (·+1) (Nat.ModEq.add_right_cancel' 1 ?_)
  rwa[Nat.sub_add_cancel (Nat.one_le_iff_ne_zero.2 ha),Nat.sub_add_cancel (Nat.one_le_iff_ne_zero.2 hb)]
lemma residue_add (m a b:Nat):residue m (residue m a+b)=residue m (a+b):=
 residue_congr ((residue_modEq m a).add_right b) (by simp[residue_eq_zero])
lemma residue_residue {k:Nat}(h:m∣k)(n:Nat):residue m (residue k n)=residue m n:=
 residue_congr ((residue_modEq k n).of_dvd h) residue_eq_zero
lemma residue_le (hm:0 < m)(n:Nat):residue m n ≤ m:=by
 have:=Nat.mod_lt (n-1) hm
 unfold residue
 split<;>omega
lemma residue_of_le (h:n ≤ m):residue m n=n:=by
 unfold residue
 split
 ·omega
 ·rw[Nat.mod_eq_of_lt (by omega)]
  omega
def carrySum (l:List Nat):Nat:=l.foldl (fun s w=>(s+w)%0x10000+(s+w)/0x10000) 0
lemma carrySum_eq {l:List Nat}(h:∀w∈l,w<0x10000):carrySum l=residue 0xffff l.sum:=by
 have hst (t:Nat)(ht:t<0x1ffff):t%0x10000+t/0x10000=residue 0xffff t:=by
  unfold residue
  split<;>omega
 have hf (s:Nat)(hs:s<0x10000):l.foldl (fun s w=>(s+w)%0x10000+(s+w)/0x10000) s=residue 0xffff (s+l.sum):=by
  induction l generalizing s with
  | nil=>exact (residue_of_le (show s+0≤0xffff by omega)).symm
  | cons w l ih=>
   obtain⟨hw,hl⟩:=forall_mem_cons.1 h
   rw[foldl_cons,ih hl _ (by omega),hst _ (by omega),residue_add,sum_cons,add_assoc]
 rw[carrySum,hf 0 (by decide),zero_add]
lemma carry_twice {s:Nat}(hs:s≤0xffffffff):
 (s%0x10000+s/0x10000+(s%0x10000+s/0x10000)/0x10000)%0x10000=residue 0xffff s:=by
 have hsa:residue 0xffff s=residue 0xffff (s%0x10000+s/0x10000):=by
  have hs':s=s%0x10000+s/0x10000+s/0x10000*0xffff:=by omega
  refine residue_congr ?_ (by omega)
  nth_rewrite 1 [hs']
  exact Nat.add_mul_modulus_modEq_iff.2 rfl
 have ht:s%0x10000+s/0x10000<0x1ffff:=by omega
 rw[hsa]
 generalize s%0x10000+s/0x10000=t at ht
 rcases (show t/0x10000=0∨t/0x10000=1 by omega) with hq|hq
 ·rw[hq,residue_of_le (by omega)]
  omega
 ·rw[hq,residue]
  split<;>omega
lemma residue_sum_halves (half:Nat→Nat)(n:Nat):
 residue 0xffff ((range n).map fun k=>half (2*k)+0x10000*half (2*k+1)).sum=
 residue 0xffff ((range (2*n)).map half).sum:=by
 have hs:∃hi,((range n).map fun k=>half (2*k)+0x10000*half (2*k+1)).sum=
  ((range (2*n)).map half).sum+0xffff*hi∧hi≤((range (2*n)).map half).sum:=by
  induction n with
  | zero=>exact⟨0,rfl,le_rfl⟩
  | succ n ih=>
   obtain⟨hi,heq,hle⟩:=ih
   refine⟨hi+half (2*n+1),?_⟩
   rw[show 2*(n+1)=2*n+1+1 by omega,range_succ,range_succ,range_succ]
   simp only[map_append,sum_append,map_singleton,sum_singleton,heq]
   omega
 obtain⟨hi,heq,hle⟩:=hs
 rw[heq]
 exact residue_congr (by simp[Nat.ModEq]) (by omega)
namespace File
variable {f:File}
lemma sumWords_eq (s n:Nat):∀i sum,sum≤0xffffffff→f.sumWords s n i sum=
 residue 0xffffffff (sum+((range n).map fun k=>if i+4*k=s then 0 else f.word (i+4*k)).sum):=by
 have hc (t:Nat)(ht:t<0x1ffffffff):
  (if 0xffffffff<t then t%0x100000000+t/0x100000000 else t)=residue 0xffffffff t:=by
  unfold residue
  split<;>split<;>omega
 induction n with
 | zero=>exact fun _ sum hs=>(residue_of_le hs).symm
 | succ n ih=>
  intro i sum hs
  have hw:f.word i<256^4:=Bytes.le_lt f.data i 4
  have hst:f.sumWords s (n+1) i sum=f.sumWords s n (i+4)
   (residue 0xffffffff (sum+if i=s then 0 else f.word i)):=by
   rw[sumWords,←hc _ (by split<;>omega)]
   by_cases hi:i=s<;>simp[hi]
  rw[hst,ih _ _ (residue_le (by decide) _),residue_add,range_succ_eq_map,map_cons,sum_cons,map_map,add_assoc]
  refine congrArg (fun l:List Nat=>residue 0xffffffff (sum+((if i=s then 0 else f.word i)+l.sum))) ?_
  refine map_congr_left fun k _=>?_
  simp only[Function.comp,show i+4*(k+1)=i+4+4*k by omega,Nat.succ_eq_add_one]
lemma read?_eq (h:read? d=some f):f.data=d∧f.start=d.le 60 4:=by
 simp only[read?,Option.ite_none_left_eq_some]at h
 obtain⟨-,h⟩:=h
 cases h
 exact⟨rfl,rfl⟩

/-- The checksum is the residue of the sum of the words of two bytes. The field of the header counts as zero at a
multiple of four. -/
lemma calculatedChecksum_eq (f:File):
 let byte (i:Nat):=if 4∣f.start∧f.start+88 ≤ i∧i<f.start+92 then 0 else (f.data.byteAt i).toNat
 f.calculatedChecksum=
  f.size+residue 0xffff ((range ((f.size+1)/2)).map fun k=>byte (2*k)+256*byte (2*k+1)).sum:=by
 intro byte
 have hwo (k:Nat):(if 0+4*k=f.start+88 then 0 else f.word (0+4*k))=
  byte (2*(2*k))+256*byte (2*(2*k)+1)+0x10000*(byte (2*(2*k+1))+256*byte (2*(2*k+1)+1)):=by
  have hle:f.word (0+4*k)=(f.data.byteAt (4*k)).toNat+256*((f.data.byteAt (4*k+1)).toNat+256*
   ((f.data.byteAt (4*k+2)).toNat+256*(f.data.byteAt (4*k+3)).toNat)):=by
   rw[zero_add]
   rfl
  rw[show 2*(2*k)=4*k by omega,show 2*(2*k+1)=4*k+2 by omega]
  by_cases hf:0+4*k=f.start+88
  ·have hin (i:Nat) (hi:4*k ≤ i∧i<4*k+4):byte i=0:=if_pos (by omega)
   rw[if_pos hf,hin _ (by omega),hin _ (by omega),hin _ (by omega),hin _ (by omega)]
  ·have ho (i:Nat) (hi:4*k ≤ i∧i<4*k+4):byte i=(f.data.byteAt i).toNat:=if_neg (by omega)
   rw[if_neg hf,hle,ho _ (by omega),ho _ (by omega),ho _ (by omega),ho _ (by omega)]
   ring
 have he (j:Nat) (hj:(f.size+1)/2≤j):byte (2*j)+256*byte (2*j+1)=0:=by
  have hz (i:Nat) (hi:f.size ≤ i):byte i=0:=by
   simp only[byte,Bytes.byteAt_of_le hi]
   split<;>rfl
  rw[hz _ (by omega),hz _ (by omega)]
 have hs:((range (2*(f.size/4+1))).map fun k=>byte (2*k)+256*byte (2*k+1)).sum=
  ((range ((f.size+1)/2)).map fun k=>byte (2*k)+256*byte (2*k+1)).sum:=by
  obtain⟨m,hm⟩:=Nat.exists_eq_add_of_le (show (f.size+1)/2≤2*(f.size/4+1) by omega)
  rw[hm,range_add,map_append,sum_append,map_map,Nat.add_eq_left]
  refine sum_eq_zero fun w hw=>?_
  obtain⟨k,-,rfl⟩:=mem_map.1 hw
  exact he _ (Nat.le_add_right _ _)
 rw[←hs,←residue_sum_halves (fun k=>byte (2*k)+256*byte (2*k+1)),calculatedChecksum]
 have hsumWords:=f.sumWords_eq (f.start+88) (f.size/4+1) 0 0 zero_le
 simp only[hwo,zero_add (sum _)]at hsumWords
 rw[hsumWords,carry_twice (residue_le (by decide) _),residue_residue (by decide),add_comm]
end File
end Pe
namespace Module.Pe
open PatternScan.Pe
/-- The checksum that the module calculates, and what it depends on. -/
theorem checksum_reported {d:Bytes} {f:File} (hread:File.read? d=some f) (base:Nat) (memory:Bool) (c:Call) :
 let field (i:Nat):=f.start+88 ≤ i ∧ i<f.start+92
 let byte (i:Nat):=if 4∣f.start ∧ field i then 0 else (d.byteAt i).toNat
 let answer (f:File):=call .checksum (some (Image.ofFile f base memory)) c
 answer f=.ofNat (d.size+carrySum ((List.range ((d.size+1)/2)).map fun k=>byte (2*k)+256*byte (2*k+1))) ∧
 ∀d' f',File.read? d'=some f' → d'.size=d.size → (∀i,¬field i → d'.byteAt i=d.byteAt i) → 4∣f.start →
  answer f'=answer f := by
 intro field byte answer
 obtain⟨rfl,hst⟩:=File.read?_eq hread
 have hhalves:∀w∈(List.range ((f.data.size+1)/2)).map fun k=>byte (2*k)+256*byte (2*k+1),w<0x10000:=by
  intro w hw
  obtain⟨k,-,rfl⟩:=List.mem_map.mp hw
  have hbyte (i:Nat):byte i<256:=by
   have:=(f.data.byteAt i).toNat_lt
   simp only[byte]
   split<;>omega
  have h0:=hbyte (2*k)
  have h1:=hbyte (2*k+1)
  omega
 rw[carrySum_eq hhalves]
 refine⟨congrArg Object.ofNat f.calculatedChecksum_eq,fun d' f' hread' hsize hsame hfour=>congrArg Object.ofNat ?_⟩
 obtain⟨rfl,hst'⟩:=File.read?_eq hread'
 have hst:f'.start=f.start:=by
  rw[hst',hst]
  exact Bytes.le_congr fun k hk=>hsame _ fun h=>by
   have:=h.1
   omega
 have hbyte (i:Nat):(if 4∣f'.start∧f'.start+88 ≤ i∧i<f'.start+92 then 0 else (f'.data.byteAt i).toNat)=byte i:=by
  rw[hst]
  by_cases hi:field i
  ·rw[if_pos ⟨hfour,hi⟩]
   exact (if_pos ⟨hfour,hi⟩).symm
  ·rw[if_neg fun h=>hi h.2,hsame i hi]
   exact (if_neg fun h=>hi h.2).symm
 refine f'.calculatedChecksum_eq.trans (Eq.trans ?_ f.calculatedChecksum_eq.symm)
 simp only[hbyte,File.size,hsize]
 rfl
def headed (start:UInt8):Bytes:=
 .ofList (77::90::(replicate 58 0++start::0::0::0::(replicate (start.toNat-64) 0 ++
  80::69::replicate 246 0)))
lemma read?_getD (h:(read? d).isSome):read? d=some ((read? d).getD default):=by
 obtain⟨f,hf⟩:=Option.isSome_iff_exists.1 h
 rw[hf]
 rfl
theorem checksum_reported_cleared :
 let answer (d:Bytes):=call .checksum (some (Image.ofFile ((File.read? d).getD default) 0 false)) ⟨[],[],.empty⟩
 answer ((headed 64).setByte 152 7)=answer (headed 64):=by
 have hst:((File.read? (headed 64)).getD default).start=64:=by decide +kernel
 have hread:=read?_getD (d:=headed 64) (by decide +kernel)
 have hread':=read?_getD (d:=(headed 64).setByte 152 7) (by decide +kernel)
 generalize headed 64=d at *
 refine (checksum_reported hread 0 false _).2 _ _ hread' (Bytes.size_setByte _ _ _) (fun i hi=>?_) (by rw[hst];decide)
 rw[hst]at hi
 rw[Bytes.byteAt_setByte,if_neg (by omega)]
lemma calculatedChecksum_of_read? {d:Bytes}(h:(File.read? d).isSome)(hst:¬4∣d.le 60 4):
 ((File.read? d).getD default).calculatedChecksum=
  d.size+residue 0xffff ((List.range ((d.size+1)/2)).map fun k=>
   (d.byteAt (2*k)).toNat+256*(d.byteAt (2*k+1)).toNat).sum:=by
 obtain⟨hdata,hstart⟩:=File.read?_eq (read?_getD h)
 simp only[File.calculatedChecksum_eq,File.size,hdata,hstart,hst,false_and,if_false]
lemma residue_succ_ne (n:Nat):residue 0xffff (n+1)≠residue 0xffff n:=by
 unfold residue
 split<;>split<;>omega
theorem checksum_counts_field :
 ((File.read? ((headed 66).setByte 154 1)).getD default).calculatedChecksum ≠
 ((File.read? (headed 66)).getD default).calculatedChecksum:=by
 have hsize:(headed 66).size=314:=by decide +kernel
 have hzero:(headed 66).byteAt 154=0:=by decide +kernel
 rw[calculatedChecksum_of_read? (by decide +kernel) (by decide +kernel),
  calculatedChecksum_of_read? (by decide +kernel) (by decide +kernel)]
 generalize headed 66=d at *
 have hword (k:Nat):((d.setByte 154 1).byteAt (2*k)).toNat+256*((d.setByte 154 1).byteAt (2*k+1)).toNat=
  (d.byteAt (2*k)).toNat+256*(d.byteAt (2*k+1)).toNat+if k=77 then 1 else 0:=by
  rw[Bytes.byteAt_setByte,Bytes.byteAt_setByte,if_neg (show ¬(2*k+1=154∧154<d.size) by omega)]
  by_cases hk:k=77
  ·subst hk
   simp[hzero,hsize,add_comm]
  ·rw[if_neg (by omega),if_neg hk,add_zero]
 have hone:((List.range 157).map fun k=>if k=77 then 1 else 0).sum=1:=by decide +kernel
 -- The two sums differ by one.
 simp only[Bytes.size_setByte,hsize,hword,List.sum_map_add,hone]
 exact fun h=>residue_succ_ne _ (Nat.add_left_cancel h)
end Module.Pe
end PatternScan
