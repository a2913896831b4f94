import Mathlib.Algebra.Order.BigOperators.Group.List
import PatternScan.Proofs.Arena.Copies
/-! Pointers and bytes of an arena through allocations and writes, wherever its buffers come to lie. -/
namespace PatternScan.Arena
open Bytes List
attribute [local irreducible] setLe Bytes.le
variable {a b c:Arena}{r t:Ref}{k n:Nat}{d:Bytes}
/-- The bytes of a buffer have room in its block, and the block in the memory. -/
def Buffer.Fits (b:Buffer):Prop:=b.data.size≤b.capacity∧b.capacity≤2^32∧b.base+b.capacity≤2^64
 deriving Decidable
def Buffer.Apart (b c:Buffer):Prop:=
 b.base≠0→c.base≠0→b.base+b.capacity≤c.base∨c.base+c.capacity≤b.base
 deriving Decidable
/-- Each buffer of an arena has a block of memory for its bytes, and no two blocks overlap. -/
structure Seated (a:Arena):Prop where
 initial:0<a.initial
 buffers:a.count≤a.buffers.size
 fits:∀i<a.count,(a.bufferAt i).Fits
 blocks:∀i<a.count,∀j<a.count,i≠j→(a.bufferAt i).Apart (a.bufferAt j)

/-- A block that overlaps no other buffer's. Nothing is said of the block that the buffer `k` had before. -/
structure Block (a:Arena)(k n base:Nat):Prop where
 some:base≠0
 memory:base+n≤2^64
 blocks:∀i<a.count,i≠k→{a.bufferAt k with base:=base,capacity:=n}.Apart (a.bufferAt i)

/-- An allocator answers with a block or with none. -/
structure Allocator where
 place:Arena→Nat→Nat→Nat
 block:∀a k n,a.Seated→place a k n≠0→a.Block k n (place a k n)
structure Sound (a:Arena):Prop extends Seated a,Tidy a

/-- What stays of an arena `a` when it has become `b`: the targets of its pointers, and all other bytes. -/
structure Keeps (a b:Arena):Prop where
 count:b.count=a.count
 size:∀i,(a.bufferAt i).data.size≤(b.bufferAt i).data.size
 places:a.relocations.toList <+: b.relocations.toList
 fresh:∀r∈b.relocations.toList,r∈a.relocations.toList∨(a.bufferAt r.buffer).data.size≤r.offset
 follow:∀r∈a.relocations.toList,∀t,a.follow? r=some t→b.follow? r=some t
 bytes:∀i j,j<(a.bufferAt i).data.size→(∀r∈a.relocations.toList,r.buffer=i→j<r.offset∨r.offset+8≤j)→
  (b.bufferAt i).data.byteAt j=(a.bufferAt i).data.byteAt j
namespace Keeps
lemma refl (a:Arena):Keeps a a:=⟨rfl,fun _=>le_rfl,prefix_rfl,fun _=>.inl,fun _ _ _=>id,fun _ _ _ _=>rfl⟩
lemma trans (h:Keeps a b)(h':Keeps b c):Keeps a c where
 count:=h'.count.trans h.count
 size i:=(h.size i).trans (h'.size i)
 places:=h.places.trans h'.places
 fresh r hr:=by
  rcases h'.fresh r hr with hr|hr
  ·exact h.fresh r hr
  ·exact .inr ((h.size _).trans hr)
 follow r hr t ht:=h'.follow r (h.places.subset hr) t (h.follow r hr t ht)
 bytes i j hj hp:=by
  rw[h'.bytes i j (hj.trans_le (h.size i)) fun r hr hi=>?_,h.bytes i j hj hp]
  rcases h.fresh r hr with hr|hr
  ·exact hp r hr hi
  ·exact .inl (hj.trans_le (hi▸hr))
end Keeps
namespace Seated
lemma place?_eq (h:a.Seated){i o:Nat}(hi:i<a.count)(hb:(a.bufferAt i).base≠0)(ho:o<(a.bufferAt i).data.size):
 a.place? ((a.bufferAt i).base+o)=some ⟨i,o⟩:=by
 obtain⟨q,hq⟩:=Option.isSome_iff_exists.1 (isSome_place?_iff.2 (.inr ⟨i,hi,hb,Nat.le_add_right _ o,by omega⟩))
 obtain⟨hqc,hqb,hqv,hqo⟩:=place?_eq_some hq (by omega)
 have hr:=(h.fits i hi).1
 have hqr:=(h.fits _ hqc).1
 have hqi:q.buffer=i:=by
  by_contra hne
  rcases h.blocks _ hqc i hi hne hqb hb with hd|hd<;>omega
 rw[hq]
 subst hqi
 congr 1
 exact congrArg (Ref.mk q.buffer) (by omega)
lemma modify {f:Buffer→Buffer}(h:a.Seated)(hk:k<a.count)(hf:(f (a.bufferAt k)).Fits)
 (ha:∀i<a.count,i≠k→(f (a.bufferAt k)).Apart (a.bufferAt i)):Seated {a with buffers:=a.buffers.modify k f}:=by
 have hb:=fun i=>bufferAt_modify (f:=f) a i (.inl (hk.trans_le h.buffers))
 refine⟨h.initial,by simpa using h.buffers,fun i hi=>?_,fun i hi j hj hne=>?_⟩
 ·rw[hb]
  split
  ·next he=>exact he▸hf
  ·exact h.fits i hi
 ·rw[hb,hb]
  -- at most one of the two is new
  by_cases hki:k=i
  ·subst hki
   rw[if_pos rfl,if_neg hne]
   exact ha j hj hne.symm
  ·rw[if_neg hki]
   by_cases hkj:k=j
   ·subst hkj
    rw[if_pos rfl]
    exact fun hbi hbj=>(ha i hi hne hbj hbi).symm
   ·rw[if_neg hkj]
    exact h.blocks i hi j hj hne
end Seated
/-- The address of a byte when a buffer has moved. -/
def shift (b:Buffer)(new v:Nat):Nat:=
 if b.base≠0∧b.base≤v∧v<b.base+b.data.size then v-b.base+new else v
def reseat (a:Arena)(k base capacity:Nat):Arena:=
 {a with buffers:=a.buffers.modify k fun b=>{b with base:=base,capacity:=capacity}}
lemma exchange_self {f:Nat→Nat}(h:∀v,f v=v)(ps:List Ref):exchange f ps a=a:=by
 induction ps with
 | nil=>rfl
 | cons r ps ih=>rw[exchange_cons,h,store64_load64,ih]
lemma move_eq (a:Arena)(k base capacity:Nat):a.move k base capacity=
 exchange (shift (a.bufferAt k) base) a.relocations.toList (a.reseat k base capacity):=by
 rw[move]
 split
 ·next h=>exact (exchange_self (fun v=>if_neg fun hv=>hv.1 h) _).symm
 ·next h=>
  rw[relocate,←Array.foldl_toList,exchange]
  congr 1
  funext c r
  simp only[shift,ne_eq,h,not_false_eq_true,true_and,Bool.and_eq_true,decide_eq_true_eq]
  split
  ·rfl
  ·exact (store64_load64 c r).symm
lemma relocations_exchange (f:Nat→Nat)(ps:List Ref)(a:Arena):
 (exchange f ps a).relocations=a.relocations∧(exchange f ps a).initial=a.initial∧
 (exchange f ps a).buffers.size=a.buffers.size∧∀i,((exchange f ps a).bufferAt i).capacity=(a.bufferAt i).capacity:=by
 induction ps generalizing a with
 | nil=>exact⟨rfl,rfl,rfl,fun _=>rfl⟩
 | cons r ps ih=>
  obtain⟨h1,h2,h3,h4⟩:=ih (a.store64 r (f (a.load64 r)))
  refine⟨h1,h2,h3.trans (by simp[store64]),fun i=>(h4 i).trans ?_⟩
  rw[bufferAt_store64]
  split<;>rfl
lemma bufferAt_reseat (hk:k<a.buffers.size)(base m i:Nat):(a.reseat k base m).bufferAt i=
 if k=i then {a.bufferAt i with base:=base,capacity:=m} else a.bufferAt i:=
 bufferAt_modify a i (.inl hk)
lemma data_reseat (hk:k<a.buffers.size)(base m i:Nat):((a.reseat k base m).bufferAt i).data=(a.bufferAt i).data:=by
 rw[bufferAt_reseat hk]
 split<;>rfl
lemma Seated.congr (h:a.Seated)(hl:SameLayout a b)(hi:b.initial=a.initial)(hs:b.buffers.size=a.buffers.size)
 (hc:∀i,(b.bufferAt i).capacity=(a.bufferAt i).capacity):b.Seated:=by
 refine⟨hi▸h.initial,hl.count.trans_le (hs▸h.buffers),fun i hi=>?_,fun i hi j hj=>?_⟩
 ·obtain⟨h1,h2,h3⟩:=h.fits i (hl.count▸hi)
  exact⟨by rwa[hl.size,hc],by rwa[hc],by rwa[hl.base,hc]⟩
 ·rw[Buffer.Apart,hl.base,hl.base,hc,hc]
  exact h.blocks i (hl.count▸hi) j (hl.count▸hj)
section
variable {p:Nat}(h:a.Sound)(hk:k<a.count)(hn:(a.bufferAt k).data.size≤n)(hm:n≤2^32)(hp:a.Block k n p)
include h hk hn hm hp
lemma Sound.reseat:(a.reseat k p n).Seated:=h.toSeated.modify hk ⟨hn,hm,hp.memory⟩ hp.blocks

/-- A pointer that is shifted with its target goes on to designate it. -/
lemma Sound.place?_shift {v:Nat}(ht:a.place? v=some t):(a.reseat k p n).place?
 (shift (a.bufferAt k) p v%256^8)=some t:=by
 have hs:=h.reseat hk hn hm hp
 have hb:=bufferAt_reseat (hk.trans_le h.buffers) p n
 by_cases hv:v=0
 ·subst hv
  rw[shift,if_neg (by omega)]
  exact ht
 obtain⟨htc,htb,htv,hto⟩:=place?_eq_some ht hv
 have hr:=(h.fits _ htc).1
 have hme:=(hs.fits _ htc).2.2
 have hsz:=data_reseat (hk.trans_le h.buffers) p n t.buffer
 have hpl:=hs.place?_eq (i:=t.buffer) (o:=t.offset) htc
 rw[hsz]at hpl
 rw[hb]at hpl hme
 by_cases hkt:k=t.buffer
 ·subst hkt
  simp only[if_true]at hpl hme
  have hv:v-(a.bufferAt t.buffer).base+p=p+t.offset:=by omega
  rw[shift,if_pos ⟨htb,by omega,by omega⟩,hv,Nat.mod_eq_of_lt (by omega)]
  exact hpl hp.some hto
 ·rw[if_neg hkt]at hpl hme
  have hno:¬((a.bufferAt k).base≠0∧(a.bufferAt k).base≤v∧v<(a.bufferAt k).base+(a.bufferAt k).data.size):=by
   rintro⟨hkb,hle,hlt⟩
   have:=(h.fits k hk).1
   rcases h.blocks k hk _ htc hkt hkb htb with hd|hd<;>omega
  rw[shift,if_neg hno,Nat.mod_eq_of_lt (by omega),htv]
  exact hpl htb hto
lemma Sound.move:(a.move k p n).Sound∧Keeps a (a.move k p n)∧
 SameLayout (a.reseat k p n) (a.move k p n)∧
 ((a.move k p n).bufferAt k).capacity=n:=by
 have hd:=data_reseat (hk.trans_le h.buffers) p n
 have hs:=h.reseat hk hn hm hp
 have hpl:=fun t v=>h.place?_shift hk hn hm hp (t:=t) (v:=v)
 have hcap:((a.reseat k p n).bufferAt k).capacity=n:=by
  rw[bufferAt_reseat (hk.trans_le h.buffers),if_pos rfl]
 rw[move_eq]
 have hl:=sameLayout_exchange (shift (a.bufferAt k) p) a.relocations.toList
  (a.reseat k p n)
 obtain⟨hre,hin,hbs,hca⟩:=relocations_exchange (shift (a.bufferAt k) p) a.relocations.toList
  (a.reseat k p n)
 have hh:∀r∈a.relocations.toList,(a.reseat k p n).Holds r:=by
  intro r hr
  rw[Holds,hd]
  exact h.holds r hr
 refine⟨⟨hs.congr hl hin hbs hca,?_⟩,?_,hl,(hca k).trans hcap⟩
 ·refine⟨?_,fun r hr=>?_,fun r hr=>?_⟩
  ·rw[hre]
   exact h.apart
  ·exact hl.holds.2 (hh r (hre▸hr))
  ·rw[hl.count]
   exact h.buffer r (hre▸hr)
 ·refine⟨hl.count,fun i=>?_,?_,fun r hr=>.inl (hre▸hr),fun r hr t ht=>?_,fun i j _ hp=>?_⟩
  ·rw[hl.size,hd]
  ·rw[hre]
   exact prefix_rfl
  ·rw[follow?,hl.place?,load64_exchange h.apart hr (hh r hr),load64,hd]
   exact hpl t _ ht
  ·rw[byteAt_exchange hp,hd]
end
lemma le_enlarge (need start fuel:Nat):need≤enlarge need fuel start∨start*2^fuel≤enlarge need fuel start:=by
 induction fuel generalizing start with
 | zero=>exact .inr (mul_one start).le
 | succ fuel ih=>
  rw[enlarge]
  split
  ·rw[Nat.pow_succ',←mul_assoc]
   exact ih (start*2)
  ·exact .inl (by omega)

/-- Sizes that cannot take the number of bytes in use beyond a word. -/
def sizeLimit:Nat:=2^64-2^32
lemma Sound.reserve (m:Allocator)(h:a.Sound)(hk:k<a.count)(hn:n<sizeLimit)(hb:a.reserve k n m.place=.ok b):
 b.Sound∧Keeps a b∧b.relocations=a.relocations∧(∀i,(b.bufferAt i).data.size=(a.bufferAt i).data.size)∧
 (b.bufferAt k).data.size+n≤(b.bufferAt k).capacity:=by
 obtain⟨hr,hmo,-⟩:=h.fits k hk
 have hw:((a.bufferAt k).data.size+n)%wordSpan=(a.bufferAt k).data.size+n:=by
  simp only[sizeLimit]at hn
  exact Nat.mod_eq_of_lt (by rw[wordSpan];omega)
 simp only[Arena.reserve,if_neg (not_lt.2 hk.le),hw]at hb
 generalize hst:(if (a.bufferAt k).capacity=0 then a.initial else (a.bufferAt k).capacity*2)=start at hb
 have hpos:0<start:=by
  have:=h.initial
  split at hst<;>omega
 have hne:=le_enlarge ((a.bufferAt k).data.size+n) start 64
 generalize enlarge _ 64 start=cap at hb hne
 split at hb
 ·split at hb
  ·cases hb
  ·next hf=>
   obtain rfl:=Except.ok.inj hb
   simp only[Bool.or_eq_true,decide_eq_true_eq,not_or,not_lt]at hf
   obtain⟨hs,hke,hl,hc⟩:=h.move hk (by omega) hf.1 (m.block a k cap h.toSeated hf.2)
   have hsz:=fun i=>(hl.size i).trans (congrArg ByteArray.size (data_reseat (hk.trans_le h.buffers) _ _ i))
   refine⟨hs,hke,?_,hsz,?_⟩
   ·rw[move_eq]
    exact (relocations_exchange ..).1
   ·rw[hsz,hc]
    omega
 ·obtain rfl:=Except.ok.inj hb
  exact⟨h,.refl a,rfl,fun _=>rfl,by omega⟩
lemma bufferAt_extend (hk:k<a.buffers.size)(d:Bytes)(i:Nat):(a.extend k d).2.bufferAt i=
 if k=i then {a.bufferAt i with data:=(a.bufferAt i).data++d} else a.bufferAt i:=
 bufferAt_modify a i (.inl hk)
lemma Sound.extend (h:a.Sound)(hk:k<a.count)(hr:(a.bufferAt k).data.size+d.size≤(a.bufferAt k).capacity):
 (a.extend k d).2.Sound∧Keeps a (a.extend k d).2:=by
 have hb:=bufferAt_extend (hk.trans_le h.buffers) d
 have hba:∀i,((a.extend k d).2.bufferAt i).base=(a.bufferAt i).base:=fun i=>by rw[hb];split<;>rfl
 obtain⟨e,he⟩:∃e:Nat→Bytes,∀i,((a.extend k d).2.bufferAt i).data=(a.bufferAt i).data++e i:=by
  refine⟨fun i=>if k=i then d else ByteArray.empty,fun i=>?_⟩
  rw[hb]
  dsimp only
  split
  ·rfl
  ·exact ByteArray.append_empty.symm
 have hle:∀i,(a.bufferAt i).data.size≤((a.extend k d).2.bufferAt i).data.size:=fun i=>by
  rw[he,ByteArray.size_append]
  omega
 obtain⟨-,hmo,hme⟩:=h.fits k hk
 have hs:(a.extend k d).2.Seated:=h.toSeated.modify hk ⟨by simpa using hr,hmo,hme⟩ fun i hi hne=>h.blocks k hk i hi hne.symm
 refine⟨⟨hs,h.apart,fun r hr=>(h.holds r hr).trans (hle _),h.buffer⟩,
  rfl,hle,prefix_rfl,fun _=>.inl,fun r hr t ht=>?_,fun i j hj _=>?_⟩
 ·have hlo:(a.extend k d).2.load64 r=a.load64 r:=by
   rw[load64,he,le_append_left _ (h.holds r hr),load64]
  rw[follow?,hlo]
  rw[follow?]at ht
  by_cases hv:a.load64 r=0
  ·rw[hv]at ht⊢
   exact ht
  ·obtain⟨htc,htb,htv,hto⟩:=place?_eq_some ht hv
   rw[htv,←hba]
   exact hs.place?_eq htc (by rwa[hba]) (hto.trans_le (hle _))
 ·rw[he,byteAt_append,if_pos hj]
lemma foldl_addRelocation (k o:Nat)(fs:List Nat)(a:Arena):fs.foldl (fun a f=>a.addRelocation ⟨k,o+f⟩) a=
 {a with relocations:=a.relocations++(fs.map fun f=>(⟨k,o+f⟩:Ref)).toArray}:=by
 induction fs generalizing a with
 | nil=>simp
 | cons f fs ih=>
  rw[foldl_cons,ih]
  simp[addRelocation]

/-- The pointers of a record that lies behind all bytes of `a` are registered. -/
lemma Sound.register {fs:List Nat}{o:Nat}(h:b.Sound)(hab:Keeps a b)(ha:b.relocations=a.relocations)
 (ht:a.Tidy)(hk:k<b.count)(ho:o=(a.bufferAt k).data.size)(hf:fs.Pairwise fun f g=>f+8≤g∨g+8≤f)
 (hi:∀f∈fs,o+f+8≤(b.bufferAt k).data.size):
 (fs.foldl (fun a f=>a.addRelocation ⟨k,o+f⟩) b).Sound∧Keeps a (fs.foldl (fun a f=>a.addRelocation ⟨k,o+f⟩) b):=by
 rw[foldl_addRelocation]
 have hl:(b.relocations++(fs.map fun f=>(⟨k,o+f⟩:Ref)).toArray).toList=
  b.relocations.toList++fs.map fun f=>(⟨k,o+f⟩:Ref):=by simp
 refine⟨⟨⟨h.initial,h.buffers,h.fits,h.blocks⟩,?_,fun r hr=>?_,fun r hr=>?_⟩,
  hab.count,hab.size,?_,fun r hr=>?_,hab.follow,hab.bytes⟩
 ·rw[hl,pairwise_append,pairwise_map]
  refine⟨h.apart,hf.imp fun hfg _=>?_,?_⟩
  ·rcases hfg with hfg|hfg
   ·exact .inl (by dsimp only;omega)
   ·exact .inr (by dsimp only;omega)
  ·intro r hr q hq hrq
   obtain⟨f,-,rfl⟩:=mem_map.1 hq
   have hh:=ht.holds r (ha▸hr)
   rw[Holds,hrq,←ho]at hh
   exact .inl (by dsimp only;omega)
 ·rcases mem_append.1 (hl▸hr) with hr|hr
  ·exact h.holds r hr
  ·obtain⟨f,hf,rfl⟩:=mem_map.1 hr
   exact hi f hf
 ·rcases mem_append.1 (hl▸hr) with hr|hr
  ·exact h.buffer r hr
  ·obtain⟨f,-,rfl⟩:=mem_map.1 hr
   exact hk
 ·rw[hl,ha]
  exact prefix_append _ _
 ·rcases mem_append.1 (hl▸hr) with hr|hr
  ·exact .inl (ha▸hr)
  ·obtain⟨f,-,rfl⟩:=mem_map.1 hr
   exact .inr (by dsimp only;omega)
inductive Operation where
 | zeros (buffer size:Nat)
 | bytes (buffer:Nat)(data:Bytes)
 | record (buffer size:Nat)(fields:List Nat)
namespace Operation
def perform (place:Arena→Nat→Nat→Nat)(a:Arena):Operation→Except ResultCode (Ref×Arena)
 | .zeros k n=>a.allocate k n place
 | .bytes k d=>a.write k d place
 | .record k n fs=>a.allocateRecord k n fs place
def buffer:Operation→Nat
 | .zeros k _ | .bytes k _ | .record k _ _=>k
def size:Operation→Nat
 | .zeros _ n | .record _ n _=>n
 | .bytes _ d=>d.size
def fields:Operation→List Nat
 | .record _ _ fs=>fs
 | _=>[]

/-- The pointers of a record lie inside it, each in bytes of its own. -/
structure Fits (count:Nat)(o:Operation):Prop where
 buffer:o.buffer<count
 size:o.size<sizeLimit
 fields:o.fields.Pairwise fun f g=>f+8≤g∨g+8≤f
 inside:∀f∈o.fields,f+8≤o.size
def runAll (place:Arena→Nat→Nat→Nat):List Operation→Arena→Arena
 | [],a=>a
 | o::os,a=>
  match o.perform place a with
  | .ok (_,b)=>runAll place os b
  | .error _=>runAll place os a
lemma size_zeros (n:Nat):(Bytes.replicate n 0).size=n:=by
 unfold Bytes.replicate
 induction n with
 | zero=>rfl
 | succ n ih=>rw[Nat.fold_succ,ByteArray.size_push,ih]

/-- What an operation does with the room that it has reserved. -/
def finish (a:Arena):Operation→Ref×Arena
 | .zeros k n=>a.grant k n
 | .bytes k d=>a.extend k d
 | .record k n fs=>((a.grant k n).1,fs.foldl (fun c f=>c.addRelocation ⟨k,(a.grant k n).1.offset+f⟩) (a.grant k n).2)
lemma perform_eq (place:Arena→Nat→Nat→Nat)(a:Arena)(o:Operation):
 o.perform place a=(a.reserve o.buffer o.size place).map fun e=>finish e o:=by
 cases o with
 | record k n fs=>
  simp only[perform,allocateRecord,allocate,buffer,size]
  cases a.reserve k n place<;>rfl
 | _=>rfl
lemma finish_eq {e:Arena}{o:Operation}(h:(e.bufferAt o.buffer).data.size+o.size<wordSpan):
 ∃d:Bytes,d.size=o.size∧(finish e o).2=o.fields.foldl
  (fun c f=>c.addRelocation ⟨o.buffer,(e.bufferAt o.buffer).data.size+f⟩) (e.extend o.buffer d).2:=by
 have hg:∀k n,(e.bufferAt k).data.size+n<wordSpan→e.grant k n=e.extend k (Bytes.replicate n 0):=fun k n h=>if_pos h
 cases o with
 | zeros k n=>exact⟨_,size_zeros n,congrArg Prod.snd (hg k n h)⟩
 | bytes k d=>exact⟨d,rfl,rfl⟩
 | record k n fs=>
  refine⟨_,size_zeros n,?_⟩
  rw[finish,hg k n h]
  rfl
lemma perform_keeps (m:Allocator)(h:a.Sound){o:Operation}(ho:o.Fits a.count)(hb:o.perform m.place a=.ok (r,b)):
 b.Sound∧Keeps a b:=by
 rw[perform_eq]at hb
 cases he:a.reserve o.buffer o.size m.place with
 | error c=>
  rw[he]at hb
  cases hb
 | ok e=>
  rw[he]at hb
  obtain⟨hs,hk,hre,hsz,hro⟩:=h.reserve m ho.buffer ho.size he
  have hec:o.buffer<e.count:=hk.count▸ho.buffer
  obtain⟨d,hd,hf⟩:=finish_eq (e:=e) (o:=o) (by have:=(hs.fits _ hec).2.1;rw[wordSpan];omega)
  obtain⟨hs',hk'⟩:=hs.extend (d:=d) hec (hd▸hro)
  have hb:finish e o=(r,b):=Except.ok.inj hb
  rw[hb,hsz]at hf
  obtain rfl:b=_:=hf
  refine hs'.register (hk.trans hk') hre h.toTidy hec rfl ho.fields fun f hf=>?_
  have:=ho.inside f hf
  rw[bufferAt_extend (hec.trans_le hs.buffers),if_pos rfl,ByteArray.size_append,hsz,hd]
  omega
lemma runAll_keeps (m:Allocator)(os:List Operation)(h:a.Sound)(ho:∀o∈os,o.Fits a.count):
 (runAll m.place os a).Sound∧Keeps a (runAll m.place os a):=by
 induction os generalizing a with
 | nil=>exact⟨h,.refl a⟩
 | cons o os ih=>
  obtain⟨hof,hos⟩:=forall_mem_cons.1 ho
  rw[runAll]
  split
  ·next hb=>
   obtain⟨hs,hk⟩:=perform_keeps m h hof hb
   obtain⟨hs',hk'⟩:=ih hs (hk.count.symm▸hos)
   exact⟨hs',hk.trans hk'⟩
  ·exact ih h hos
end Operation
theorem pointers_kept (m:Allocator) {a:Arena} (h:a.Sound) {ops:List Operation} (ho:∀o∈ops,o.Fits a.count) :
 (Operation.runAll m.place ops a).Sound ∧
 (∀r∈a.relocations.toList,r∈(Operation.runAll m.place ops a).relocations.toList ∧
  ∀t,a.follow? r = some t → (Operation.runAll m.place ops a).follow? r = some t) ∧
 ∀i j,j<(a.bufferAt i).data.size → j<((Operation.runAll m.place ops a).bufferAt i).data.size ∧
  ((∀r∈a.relocations.toList,r.buffer=i → j<r.offset ∨ r.offset+8≤j) →
   ((Operation.runAll m.place ops a).bufferAt i).data.byteAt j = (a.bufferAt i).data.byteAt j) := by
 obtain⟨hs,hk⟩:=Operation.runAll_keeps m ops h ho
 exact⟨hs,fun r hr=>⟨hk.places.subset hr,hk.follow r hr⟩,fun i j hj=>⟨hj.trans_le (hk.size i),hk.bytes i j hj⟩⟩
/-- Every new block lies behind all others. -/
def Allocator.above:Allocator where
 place a _ n:=
  let last:=((range a.count).map fun i=>(a.bufferAt i).base+(a.bufferAt i).capacity).sum+1
  if last+n≤2^64 then last else 0
 block a k n _ hp:=by
  dsimp only at hp⊢
  split at hp
  ·next hl=>
   rw[if_pos hl]
   refine⟨nofun,hl,fun i hi _ _ _=>.inr (Nat.le_succ_of_le (single_le_sum (fun _ _=>zero_le) _ ?_))⟩
   exact mem_map.2 ⟨i,mem_range.2 hi,rfl⟩
  ·exact absurd rfl hp
lemma linked_sound:linked.Sound:=
 ⟨⟨by decide +kernel,by decide +kernel,by decide +kernel,by decide +kernel⟩,linked_tidy⟩
theorem pointers_kept_linked : linked.follow? ⟨0,8⟩=some ⟨1,1⟩∧
 (Operation.runAll Allocator.above.place [.zeros 1 100,.record 0 24 [0,16],.zeros 0 200] linked).follow? ⟨0,8⟩ =
  some ⟨1,1⟩:=by
 have hf:linked.follow? ⟨0,8⟩=some ⟨1,1⟩:=by decide +kernel
 refine⟨hf,((pointers_kept .above linked_sound ?_).2.1 ⟨0,8⟩ (by decide +kernel)).2 _ hf⟩
 simp only[forall_mem_cons,not_mem_nil,false_imp_iff,implies_true,and_true]
 exact⟨⟨by decide,by decide,by decide,by decide⟩,⟨by decide,by decide,by decide,by decide⟩,
  by decide,by decide,by decide,by decide⟩
def letters:Arena:=(create 1 64).put 0 (.ofList [97,98,99,100,101,102,103,104])
/-- The sum of the bytes in use and of a size near the end of the words is small, so nothing is refused and the next
bytes land on old ones. -/
theorem wrapped_size_overwrites : (letters.bufferAt 0).data.byteAt 4 = 101 ∧
 (letters.allocate 0 (2^64-4)).toOption.map (fun x=>(x.1,(x.2.bufferAt 0).data.size,
  ((x.2.put 0 (.ofList [88,89])).bufferAt 0).data.byteAt 4)) = some (⟨0,8⟩,4,88) := by decide +kernel
end PatternScan.Arena