import PatternScan.Proofs.Arena.Words
/-! How an arena is saved, and how the parts of its stream are read back. -/
open Nat Option ByteArray
open PatternScan.Bytes PatternScan.Arena.Ref
namespace PatternScan.Arena
variable {v:Nat}
attribute [local irreducible] setLe le
variable {a b:Arena}{r q:Ref}{ps qs:List Ref}{f g:Nat→Nat}{s t:Sink}
structure SameLayout (a b:Arena):Prop where
 count:b.count=a.count
 base:∀i,(b.bufferAt i).base=(a.bufferAt i).base
 size:∀i,(b.bufferAt i).data.size=(a.bufferAt i).data.size
namespace SameLayout
lemma refl (a:Arena):SameLayout a a:=⟨rfl,fun _=>rfl,fun _=>rfl⟩
lemma trans {c:Arena}(h:SameLayout a b)(h':SameLayout b c):SameLayout a c:=
 ⟨h'.count.trans h.count,fun i=>(h'.base i).trans (h.base i),fun i=>(h'.size i).trans (h.size i)⟩
lemma place? (h:SameLayout a b):b.place?=a.place?:=by
 funext v
 simp only[Arena.place?,h.count,h.base,h.size]
lemma resolve? (h:SameLayout a b):b.resolve?=a.resolve?:=by
 funext r
 simp only[Arena.resolve?,address,h.count,h.base,h.size]
lemma holds (h:SameLayout a b):b.Holds r↔a.Holds r:=by simp only[Holds,h.size]
end SameLayout
lemma sameLayout_store64 (a:Arena)(r:Ref)(v:Nat):SameLayout a (a.store64 r v):=by
 refine⟨rfl,fun i=>?_,fun i=>?_⟩<;>rw[bufferAt_store64]<;>split
 ·rfl
 ·rfl
 ·exact size_setLe ..
 ·rfl

/-! ## Replacing the words at places -/
def exchange (f:Nat→Nat)(ps:List Ref)(a:Arena):Arena:=
 ps.foldl (fun a r=>a.store64 r (f (a.load64 r))) a
lemma exchange_cons (f:Nat→Nat)(r:Ref)(ps:List Ref)(a:Arena):
 exchange f (r::ps) a=exchange f ps (a.store64 r (f (a.load64 r))):=
 rfl
lemma sameLayout_exchange (f:Nat→Nat)(ps:List Ref)(a:Arena):SameLayout a (exchange f ps a):=by
 induction ps generalizing a with
 | nil=>exact .refl a
 | cons r _ ih=>exact (sameLayout_store64 a r _).trans (ih _)
lemma exchange_store64 (h:∀q∈ps,r.Apart q):exchange f ps (a.store64 r v)=(exchange f ps a).store64 r v:=by
 induction ps generalizing a with
 | nil=>rfl
 | cons q _ ih=>
  obtain⟨hq,hps⟩:=List.forall_mem_cons.1 h
  rw[exchange_cons,exchange_cons,load64_store64_apart hq,store64_comm hq,ih hps]
lemma load64_exchange_apart (h:∀q∈ps,r.Apart q):(exchange f ps a).load64 r=a.load64 r:=by
 induction ps generalizing a with
 | nil=>rfl
 | cons q _ ih=>
  obtain⟨hq,hps⟩:=List.forall_mem_cons.1 h
  rw[exchange_cons,ih hps,load64_store64_apart hq.symm]
lemma load64_exchange (ha:ps.Pairwise Apart)(hr:r∈ps)(hh:a.Holds r):
 (exchange f ps a).load64 r=f (a.load64 r)%256^8:=by
 induction ps generalizing a with
 | nil=>exact absurd hr List.not_mem_nil
 | cons q _ ih=>
  obtain⟨hq,hps⟩:=List.pairwise_cons.1 ha
  rw[exchange_cons]
  rcases List.mem_cons.1 hr with rfl|hr
  ·rw[load64_exchange_apart hq,load64_store64 hh]
  ·rw[ih hps hr ((sameLayout_store64 a q _).holds.2 hh),load64_store64_apart (hq r hr)]
lemma exchange_exchange (ha:(qs++ps).Pairwise Apart)(hh:∀r∈qs,a.Holds r)
 (hb:∀r∈qs,g (f (a.load64 r)%256^8)=a.load64 r):
 exchange g qs (exchange f (qs++ps) a)=exchange f ps a:=by
 induction qs with
 | nil=>rfl
 | cons r qs ih=>
  obtain⟨hr,hre⟩:=List.pairwise_cons.1 ha
  obtain⟨hhe,hh⟩:=List.forall_mem_cons.1 hh
  obtain⟨hba,hb⟩:=List.forall_mem_cons.1 hb
  have hl:=sameLayout_exchange f (qs++ps) a
  have hf:exchange f (r::qs++ps) a=(exchange f (qs++ps) a).store64 r (f (a.load64 r)):=exchange_store64 hr
  have hw:(exchange f (qs++ps) a).load64 r=a.load64 r:=load64_exchange_apart hr
  rw[hf,exchange_cons,load64_store64 (hl.holds.2 hhe),store64_store64,hba,←hw,store64_load64]
  exact ih hre hh hb

/-! ## Addresses and references -/
def referenceWord (a:Arena)(v:Nat):Nat:=((a.place? v).getD null).toNat64
def addressWord (a:Arena)(v:Nat):Nat:=(a.resolve? (ofNat64 v)).getD 0
lemma SameLayout.referenceWord (h:SameLayout a b):b.referenceWord=a.referenceWord:=by
 funext v
 rw[Arena.referenceWord,h.place?,Arena.referenceWord]
lemma SameLayout.addressWord (h:SameLayout a b):b.addressWord=a.addressWord:=by
 funext v
 rw[Arena.addressWord,h.resolve?,Arena.addressWord]
lemma Ref.ofNat64_toNat64 (h:r.buffer<2^32):ofNat64 r.toNat64=r:=by
 simp only[ofNat64,toNat64]
 rw[show (r.buffer+0x100000000*r.offset)%0x100000000=r.buffer by omega,
  show (r.buffer+0x100000000*r.offset)/0x100000000=r.offset by omega]
lemma place?_zero (a:Arena):a.place? 0=some null:=if_pos rfl
lemma place?_eq_some (h:a.place? v=some r)(hv:v≠0):r.buffer<a.count∧(a.bufferAt r.buffer).base≠0∧
  v=(a.bufferAt r.buffer).base+r.offset∧
  r.offset<(a.bufferAt r.buffer).data.size:=by
 rw[place?,if_neg hv]at h
 obtain⟨i,hi,h⟩:=List.exists_of_findSome?_eq_some h
 grind
lemma isSome_place?_iff:(a.place? v).isSome↔v=0∨∃i<a.count,
 (a.bufferAt i).base≠0∧(a.bufferAt i).base≤v∧v<(a.bufferAt i).base+(a.bufferAt i).data.size:=by
 refine⟨fun h=>?_,?_⟩
 ·obtain⟨r,hr⟩:=isSome_iff_exists.1 h
  refine or_iff_not_imp_left.2 fun hv=>?_
  obtain⟨hbu,hb,hva,ho⟩:=place?_eq_some hr hv
  exact⟨r.buffer,hbu,hb,by omega,by omega⟩
 rintro (rfl|⟨i,hi,hb,hle,hlt⟩)
 ·rfl
 rw[place?]
 split
 ·rfl
 ·refine List.findSome?_isSome_iff.2 ⟨i,List.mem_range.2 hi,?_⟩
  rw[if_pos (by simp[hb,hle,hlt])]
  rfl
structure Bounded (a:Arena):Prop where
 count:a.count ≤ maxBuffers
 size:∀i<a.count,(a.bufferAt i).data.size≤2 ^ 32
lemma toNat64_lt (ha:a.Bounded)(h:a.place? v=some r):r.buffer<2^32∧r.toNat64<256^8:=by
 by_cases hv:v=0
 ·rw[hv]at h
  obtain rfl:=some.inj h
  decide
 obtain⟨hb,-,-,ho⟩:=place?_eq_some h hv
 have hc:=ha.count
 have hs:=ha.size _ hb
 simp only[maxBuffers]at hc
 simp only[toNat64]
 omega
lemma resolve?_place? (ha:a.Bounded)(h:a.place? v=some r):a.resolve? r=some v:=by
 by_cases hv:v=0
 ·rw[hv]at h
  rw[←some.inj h,hv]
  exact if_pos rfl
 obtain⟨hb,hba,hva,ho⟩:=place?_eq_some h hv
 have hc:=ha.count
 have hn:r≠null:=by
  rintro rfl
  simp only[null,maxBuffers]at hb hc
  omega
 simp only[resolve?,if_neg hn,hb,ho.le,decide_true,Bool.and_self,if_true,address,if_neg hba,hva]
lemma addressWord_referenceWord (ha:a.Bounded)(h:(a.place? v).isSome):
 a.addressWord (a.referenceWord v%256^8)=v:=by
 obtain⟨r,hr⟩:=isSome_iff_exists.1 h
 obtain⟨hb,hlt⟩:=toNat64_lt ha hr
 rw[referenceWord,hr,getD_some,mod_eq_of_lt hlt,addressWord,ofNat64_toNat64 hb,resolve?_place? ha hr,getD_some]

/-! ## The passes -/

/-- Addresses stand in bytes that are in use and belong to a buffer of the arena, each in bytes of
its own. -/
structure Tidy (a:Arena):Prop where
 apart:a.relocations.toList.Pairwise Apart
 holds:∀r∈a.relocations.toList,a.Holds r
 buffer:∀r∈a.relocations.toList,r.buffer<a.count
lemma foldlM_toReference? (h:ps.foldlM toReference? a=some b):b=exchange a.referenceWord ps a:=by
 induction ps generalizing a with
 | nil=>exact (some.inj h).symm
 | cons r _ ih=>
  obtain⟨c,hc,h⟩:=bind_eq_some_iff.1 h
  obtain⟨tr,ht,rfl⟩:=map_eq_some_iff.1 hc
  have hw:a.referenceWord (a.load64 r)=tr.toNat64:=by rw[referenceWord,ht,getD_some]
  rw[ih h,exchange_cons,hw,(sameLayout_store64 a r _).referenceWord]
lemma isSome_place?_of_foldlM (ha:ps.Pairwise Apart)
 (h:ps.foldlM toReference? a=some b)(hr:r∈ps):(a.place? (a.load64 r)).isSome:=by
 induction ps generalizing a with
 | nil=>exact absurd hr List.not_mem_nil
 | cons q _ ih=>
  obtain⟨hq,hps⟩:=List.pairwise_cons.1 ha
  obtain⟨c,hc,h⟩:=bind_eq_some_iff.1 h
  obtain⟨tr,ht,rfl⟩:=map_eq_some_iff.1 hc
  rcases List.mem_cons.1 hr with rfl|hr
  ·rw[ht]
   rfl
  ·have h:=ih hps h hr
   rwa[(sameLayout_store64 a q _).place?,load64_store64_apart (hq r hr)]at h
lemma toAddress?_of_isSome (hr:a.Holds r)(h:(a.resolve? (ofNat64 (a.load64 r))).isSome):
 a.toAddress? r=some (a.store64 r (a.addressWord (a.load64 r))):=by
 obtain⟨v,hv⟩:=isSome_iff_exists.1 h
 rw[toAddress?,referenceAt,if_pos (show r.offset+8≤_ from hr),addressWord,hv]
 rfl
lemma toAddress?_eq_some (hr:a.Holds r)(h:a.toAddress? r=some b):b=a.store64 r (a.addressWord (a.load64 r)):=by
 obtain⟨v,hv,rfl⟩:=map_eq_some_iff.1 h
 rw[referenceAt,if_pos (show r.offset+8≤_ from hr)]at hv
 rw[addressWord,hv,getD_some]
lemma taken_putAll {pieces:List Bytes}(h:s.putAll pieces=some t):t.taken=s.taken++concat pieces:=by
 induction pieces generalizing s with
 | nil=>
  rw[←some.inj h]
  exact ByteArray.append_empty.symm
 | cons x _ ih=>
  obtain⟨u,hu,h⟩:=bind_eq_some_iff.1 h
  obtain⟨-,hu⟩:=ite_none_right_eq_some.1 hu
  rw[ih h,←some.inj hu]
  exact append_assoc
def listing (ps:List Ref):List Bytes:=ps.map fun r=>digits r.toNat64 8
lemma restore_cases (s:Sink)(hh:∀r∈ps,a.Holds r):∃k,(restore ps a s).arena=exchange a.addressWord (ps.take k) a∧
  ((restore ps a s).outcome=.ok ()∧k=ps.length∧(restore ps a s).sink.taken=s.taken++concat (listing ps)∨
   (restore ps a s).outcome≠.ok ()∧k<ps.length):=by
 induction ps generalizing a s with
 | nil=>exact⟨0,rfl,.inl ⟨rfl,rfl,ByteArray.append_empty.symm⟩⟩
 | cons r _ ih=>
  obtain⟨hr,hps⟩:=List.forall_mem_cons.1 hh
  rw[restore]
  split
  ·exact⟨0,rfl,.inr ⟨nofun,succ_pos _⟩⟩
  next t ht=>
  split
  ·exact⟨0,rfl,.inr ⟨nofun,succ_pos _⟩⟩
  next b hb=>
  obtain rfl:=toAddress?_eq_some hr hb
  have hl:=sameLayout_store64 a r (a.addressWord (a.load64 r))
  obtain⟨k,ha,hen⟩:=ih t fun q hq=>hl.holds.2 (hps q hq)
  obtain⟨-,ht⟩:=ite_none_right_eq_some.1 ht
  refine⟨k+1,by rw[ha,hl.addressWord];rfl,?_⟩
  rcases hen with⟨hok,rfl,hta⟩|⟨he,hk⟩
  ·refine .inl ⟨hok,rfl,?_⟩
   rw[hta,←some.inj ht]
   exact append_assoc
  ·exact .inr ⟨he,succ_lt_succ hk⟩
lemma exchange_back (ha:a.Bounded)(ht:a.Tidy)(h:a.relocations.toList.foldlM toReference? a=some b)(k:Nat):
 exchange b.addressWord (a.relocations.toList.take k) b=
  exchange a.referenceWord (a.relocations.toList.drop k) a:=by
 obtain rfl:=foldlM_toReference? h
 rw[(sameLayout_exchange ..).addressWord]
 have hal:=List.take_append_drop k a.relocations.toList
 have hm:∀r∈a.relocations.toList.take k,r∈a.relocations.toList:=
  fun r hr=>List.mem_of_mem_take hr
 have hb:=@exchange_exchange a (a.relocations.toList.drop k) (a.relocations.toList.take k)
  a.referenceWord a.addressWord (by rw[hal];exact ht.apart)
  (fun r hr=>ht.holds r (hm r hr)) fun r hr=>
   addressWord_referenceWord ha (isSome_place?_of_foldlM ht.apart h (hm r hr))
 rwa[hal]at hb
lemma save_cases (a:Arena)(accepts:Bytes→Bytes→Bool):({accepts:=accepts}:Sink).putAll a.front=none∧
  a.save accepts=⟨.error (.code .writingFile),a,{accepts:=accepts}⟩∨
  ∃s,({accepts:=accepts}:Sink).putAll a.front=some s∧(a.save accepts=⟨.error .outside,a,s⟩∨
    ∃b,a.relocations.toList.foldlM toReference? a=some b∧(a.save accepts=⟨.error (.code .writingFile),b,s⟩∨
      ∃t,s.putAll (b.contents.filter (·.size≠0))=some t∧a.save accepts=restore a.relocations.toList b t)):=by
 rw[save]
 grind
def image (a:Arena):Arena:=exchange a.referenceWord a.relocations.toList a

/-- An arena that has been saved is what it was before, and the stream has its header, table, contents with
references, and list of places. -/
lemma save_ok (ha:a.Bounded)(ht:a.Tidy){ac:Bytes→Bytes→Bool}(h:(a.save ac).outcome=.ok ()):
 (a.save ac).arena=a∧(∀r∈a.relocations.toList,(a.place? (a.load64 r)).isSome)∧
  (a.save ac).sink.taken=concat a.front ++
   (concat (a.image.contents.filter (·.size≠0))++concat (listing a.relocations.toList)):=by
 rcases save_cases a ac with⟨-,he⟩|⟨s,hs,he|⟨b,hb,he|⟨t,hp,he⟩⟩⟩
 ·rw[he]at h
  cases h
 ·rw[he]at h
  cases h
 ·rw[he]at h
  cases h
 have hb':=foldlM_toReference? hb
 rw[he]at h⊢
 obtain⟨k,har,hen⟩:=restore_cases t fun r hr=>hb'▸(sameLayout_exchange ..).holds.2 (ht.holds r hr)
 obtain⟨-,rfl,hta⟩:=hen.resolve_right fun her=>her.1 h
 refine⟨?_,fun r hr=>isSome_place?_of_foldlM ht.apart hb hr,?_⟩
 ·rw[har,exchange_back ha ht hb,List.drop_length]
  rfl
 ·rw[hta,taken_putAll hp,taken_putAll hs,hb',append_assoc]
  exact congrArg (·++_) empty_append

/-- A stream that refuses a piece of the header or of the table leaves the arena as it was. Otherwise the addresses
whose entries it has taken are put back, and all others are left as references. -/
theorem save_refused (ha:a.Bounded) (ht:a.Tidy) {accepts:Bytes → Bytes → Bool}
 (h:(a.save accepts).outcome = .error (.code .writingFile)) :
 (({ accepts := accepts }:Sink).putAll a.front = none ∧ (a.save accepts).arena = a) ∨
  ∃ k,(({ accepts := accepts }:Sink).putAll a.front).isSome ∧
   (k < a.relocations.size ∨ a.relocations.size=0) ∧
   (a.save accepts).arena =
    exchange a.referenceWord (a.relocations.toList.drop k) a := by
 rcases save_cases a accepts with⟨hs,he⟩|⟨s,hs,he|⟨b,hb,he|⟨t,-,he⟩⟩⟩
 ·exact .inl ⟨hs,by rw[he]⟩
 ·rw[he]at h
  cases h
 ·rw[he,hs]
  exact .inr ⟨0,rfl,by omega,foldlM_toReference? hb⟩
 ·have hb':=foldlM_toReference? hb
  rw[he]at h⊢
  obtain⟨k,harena,hend⟩:=restore_cases t fun r hr=>
   hb'▸(sameLayout_exchange ..).holds.2 (ht.holds r hr)
  obtain⟨-,hk⟩:=hend.resolve_left fun hok=>by rw[hok.1]at h;cases h
  rw[hs]
  exact .inr ⟨k,rfl,.inl (by simpa using hk),harena.trans (exchange_back ha ht hb k)⟩
def put (a:Arena)(k:Nat)(d:Bytes):Arena:=
 match a.write k d with
 | .ok (_,b)=>b
 | .error _=>a
def linked:Arena:=
 (((create 2 64).put 1 (ofList [0x61,0x62,0x63])).put 0 (replicate 16 0)
  |>.addRelocation ⟨0,8⟩).point ⟨0,8⟩ ⟨1,1⟩
instance (a:Arena)(r:Ref):Decidable (a.Holds r):=inferInstanceAs (Decidable (_≤_))
instance (r q:Ref):Decidable (r.Apart q):=inferInstanceAs (Decidable (_→_))
lemma linked_tidy:linked.Tidy:=⟨by decide +kernel,by decide +kernel,by decide +kernel⟩
theorem save_refused_linked :
 (linked.save fun taken _=>taken.size<49).outcome=.error (.code .writingFile)∧
  ∃ k,(k < linked.relocations.size ∨ linked.relocations.size=0)∧
   (linked.save fun taken _=>taken.size<49).arena =
    exchange linked.referenceWord (linked.relocations.toList.drop k) linked:=by
 have hrefused:(linked.save fun taken _=>taken.size<49).outcome=
  .error (.code .writingFile):=by decide +kernel
 refine⟨hrefused,?_⟩
 rcases save_refused ⟨by decide +kernel,by decide +kernel⟩ linked_tidy hrefused with
  ⟨hfront,-⟩ | ⟨k,-,hk⟩
 ·exact absurd (congrArg Option.isNone hfront) (by decide +kernel)
 ·exact⟨k,hk⟩

/-- The stream takes all but the list of places, and the address is lost. -/
theorem refused_list_changes :
 (linked.save fun taken _=>taken.size<49).outcome=.error (.code .writingFile)∧
  linked.follow? ⟨0,8⟩=some ⟨1,1⟩∧
  (linked.save fun taken _=>taken.size<49).arena.follow? ⟨0,8⟩=none:=by
 decide +kernel
end PatternScan.Arena
namespace PatternScan
variable {b d bh rs:Bytes}{n i k:Nat}
namespace Bytes
lemma size_pushLe (b:Bytes)(v n:Nat):(b.pushLe v n).size=b.size+n:=by
 induction n generalizing b v with
 | zero=>rfl
 | succ n ih=>
  rw[pushLe,ih,size_push]
  omega
lemma byteAt_pushLe {v j:Nat}(hj:j<b.size+n):(b.pushLe v n).byteAt j=
 if j<b.size then b.byteAt j else (v/256^(j-b.size)).toUInt8:=by
 induction n generalizing b v with
 | zero=>rw[pushLe,if_pos (by omega)]
 | succ n ih=>
  rw[pushLe,ih (by rw[size_push];omega),size_push,byteAt_push]
  rcases Nat.lt_trichotomy j b.size with h|rfl|h
  ·rw[if_pos (by omega),if_neg (by omega),if_pos h]
  ·rw[if_pos (by omega),if_pos rfl,if_neg (by omega),Nat.sub_self,Nat.pow_zero,Nat.div_one]
  ·rw[if_neg (by omega),if_neg (by omega),show j-b.size=j-(b.size+1)+1 by omega,
    Nat.pow_succ',←Nat.div_div_eq_div_mul]
lemma le_append_right (b c:Bytes)(i n:Nat):le (b++c) (b.size+i) n=c.le i n:=
 le_congr fun k _=>by rw[byteAt_append,if_neg (by omega),show b.size+i+k-b.size=i+k by omega]
lemma le_append_left (c:Bytes)(h:i+n≤b.size):le (b++c) i n=b.le i n:=
 le_congr fun k _=>by rw[byteAt_append,if_pos (by omega)]
end Bytes
namespace Arena
attribute [local irreducible] setLe le
variable {a b:Arena}{r:Ref}{ps:List Ref}
lemma size_digits (v n:Nat):(digits v n).size=n:=by rw[digits,size_pushLe,size_empty,zero_add]
lemma le_digits (v n:Nat):(digits v n).le 0 n=v%256^n:=
 le_eq_mod fun k hk=>by
  rw[digits,byteAt_pushLe (by omega),size_empty,if_neg (by omega)]
  congr 3
  omega
lemma concat_cons (x:Bytes)(xs:List Bytes):concat (x::xs)=x++concat xs:=rfl
lemma concat_filter (xs:List Bytes):concat (xs.filter (·.size≠0))=concat xs:=by
 induction xs with
 | nil=>rfl
 | cons x _ ih=>
  by_cases hx:x.size=0
  ·rw[List.filter_cons_of_neg (by simp[hx]),ih,concat_cons,size_eq_zero_iff.1 hx,empty_append]
  ·rw[List.filter_cons_of_pos (by simp[hx]),concat_cons,concat_cons,ih]
lemma size_entries (o:Nat)(sz:List Nat):(concat (entries o sz)).size=12*sz.length:=by
 induction sz generalizing o with
 | nil=>rfl
 | cons n _ ih=>
  rw[entries,concat_cons,size_append,size_append,size_digits,size_digits,ih,List.length_cons]
  omega
lemma le_entries (o:Nat){sz:List Nat}(h:sz[k]?=some n):
 (concat (entries o sz)).le (12*k+8) 4=n%256^4:=by
 induction sz generalizing o k with
 | nil=>cases h
 | cons m _ ih=>
  have he:(digits o 8++digits m 4).size=12:=by rw[size_append,size_digits,size_digits]
  rw[entries,concat_cons]
  cases k with
  | zero=>
   obtain rfl:m=n:=some.inj h
   rw[le_append_left _ (by omega)]
   have hr:=le_append_right (digits o 8) (digits m 4) 0 4
   rw[size_digits]at hr
   exact hr.trans (le_digits m 4)
  | succ k=>
   rw[show 12*(k+1)+8=(digits o 8++digits m 4).size+(12*k+8) by omega,le_append_right]
   exact ih _ h
lemma size_header (a:Arena):a.header.size=6:=rfl
lemma size_front (a:Arena):(concat a.front).size=6+12*a.count:=by
 rw[front,concat_cons,size_append,size_entries,size_header]
 simp[contents]

/-! ## Reading the buffers -/
lemma enlarge_le {st m:Nat}(fl:Nat)(h:n ≤ st*2^m):enlarge n fl st ≤ st*2^m:=by
 induction fl generalizing st m with
 | zero=>exact Nat.le_mul_of_pos_right _ (Nat.two_pow_pos m)
 | succ _ ih=>
  rw[enlarge]
  split
  ·cases m with
   | zero=>omega
   | succ m=>
    have hdo:st*2^(m+1)=st*2*2^m:=by ring
    rw[hdo]at h⊢
    exact ih h
  ·exact Nat.le_mul_of_pos_right _ (Nat.two_pow_pos m)

/-- The bytes that a buffer can have in a loaded arena: its capacity is doubled from its first one. -/
def mostLoaded:Nat:=loadedInitial*2 ^ 18
def Seats (size:Nat):Prop:=size<2 ^ 32∧enlarge size 64 loadedInitial≤2 ^ 32
lemma seats_of_le {size:Nat}(h:size ≤ mostLoaded):Seats size:=
 ⟨h.trans_lt (by decide),(enlarge_le 64 h).trans (by decide)⟩
def seated (i:Nat)(d:Bytes):Buffer:=
 let capacity:=enlarge d.size 64 loadedInitial
 if d.size=0 then noBuffer else ⟨placement i capacity,capacity,d⟩
lemma data_seated (i:Nat)(d:Bytes):(seated i d).data=d:=by
 unfold seated
 split
 ·next h=>exact (size_eq_zero_iff.1 h).symm
 ·rfl
variable {ds:List Bytes}{src:Bytes}
lemma reserve_unused {sz:Nat}(hk:k≤a.count)(hi:a.initial=loadedInitial)
 (hu:a.bufferAt k=noBuffer)(hp:sz≠0)(hlt:sz<2^32):
 a.reserve k sz=if enlarge sz 64 loadedInitial>2^32 then .error .insufficientMemory
  else .ok { a with buffers:=a.buffers.modify k fun b=>{ b with
   base:=placement k (enlarge sz 64 loadedInitial)
   capacity:=enlarge sz 64 loadedInitial } }:=by
 have hb:∀c,decide (placement k c=0)=false:=fun c=>decide_eq_false (by rw[placement];omega)
 have hw:sz%wordSpan=sz:=mod_eq_of_lt (hlt.trans (by decide))
 simp only[reserve,move,hu,noBuffer,size_empty,hi,zero_add,hw,hb,Bool.or_false,decide_eq_true_eq,
  if_neg (not_lt.2 hk),if_pos (Nat.pos_of_ne_zero hp)]
 rfl

/-- An arena while its buffers are loaded: the first `k` of them are. -/
structure Loading (ds:List Bytes)(k:Nat)(a:Arena):Prop where
 count:a.count=ds.length
 most:ds.length ≤ maxBuffers
 size:a.buffers.size=maxBuffers
 initial:a.initial=loadedInitial
 relocations:a.relocations=#[]
 seats:∀i<k,Seats (ds.getD i empty).size
 buffer:∀i,a.bufferAt i=if i<k then seated i (ds.getD i empty) else noBuffer
lemma Loading.getD_next (h:Loading ds k a)(hd:ds[k]?=some d)(hs:Seats d.size)(i:Nat)(hi:i<k+1):
 Seats (ds.getD i empty).size:=by
 rcases Nat.lt_or_eq_of_le (le_of_lt_succ hi) with hi|rfl
 ·exact h.seats i hi
 ·rwa[List.getD_eq_getElem?_getD,hd]
lemma Loading.skip (h:Loading ds k a)(hd:ds[k]?=some d)(hs:d.size=0):Loading ds (k+1) a where
 __:=h
 seats:=h.getD_next hd (seats_of_le (hs▸zero_le))
 buffer i:=by
  rw[h.buffer]
  rcases Nat.lt_trichotomy i k with hi|rfl|hi
  ·rw[if_pos hi,if_pos (by omega)]
  ·rw[if_neg (by omega),if_pos (by omega),List.getD_eq_getElem?_getD,hd,getD_some,seated,if_pos hs]
  ·rw[if_neg (by omega),if_neg (by omega)]
lemma Loading.next {ds:List Bytes}{k:Nat}(h:Loading ds k a){d:Bytes}
 (hd:ds[k]?=some d)(hp:d.size≠0)(hlt:d.size<2^32):
 a.reserve k d.size=.error .insufficientMemory∧¬Seats d.size∨
  ∃b,a.reserve k d.size=.ok b∧Loading ds (k+1) (b.extend k d).2:=by
 have hk:k<ds.length:=(List.getElem?_eq_some_iff.1 hd).1
 have hu:a.bufferAt k=noBuffer:=by rw[h.buffer,if_neg (by omega)]
 rw[reserve_unused (by rw[h.count];omega) h.initial hu hp hlt]
 split
 ·next hf=>exact .inl ⟨rfl,fun hs=>not_lt.2 hs.2 hf⟩
 next hr=>
 refine .inr ⟨_,rfl,h.count,h.most,?_,h.initial,h.relocations,h.getD_next hd ⟨hlt,not_lt.1 hr⟩,fun i=>?_⟩
 ·simp[extend,h.size]
 have hin:k<a.buffers.size:=by
  rw[h.size]
  exact hk.trans_le h.most
 rw[extend,bufferAt_modify _ i (.inl (by simpa using hin)),bufferAt_modify a i (.inl hin)]
 by_cases hi:k=i
 ·subst hi
  rw[if_pos rfl,if_pos rfl,if_pos (by omega),hu,List.getD_eq_getElem?_getD,hd,getD_some,seated,if_neg hp]
  simp only[noBuffer,empty_append]
 ·rw[if_neg hi,if_neg hi,h.buffer]
  exact if_congr (by omega) rfl rfl
lemma loadBuffers_eq {rest:List Bytes}{bf:Bytes}(h:Loading ds k a)
 (hr:ds.drop k=rest)(hk:k≤ds.length)(hsr:src=bf++(concat rest++bh))
 (htb:∀j d,ds[j]?=some d → src.le (6+12*j+8) 4=d.size)(hs:∀d∈ds,Seats d.size):
 ∃b,loadBuffers src rest.length k bf.size a=
  .ok (bf.size+(concat rest).size,b) ∧ Loading ds ds.length b:=by
 induction rest generalizing k a bf with
 | nil=>
  obtain rfl:k=ds.length:=le_antisymm hk (List.drop_eq_nil_iff.1 hr)
  exact⟨a,rfl,h⟩
 | cons d rest ih=>
  have hd:ds[k]?=some d:=by rw[←List.head?_drop,hr,List.head?_cons]
  have hlt:k<ds.length:=(List.getElem?_eq_some_iff.1 hd).1
  have ht:ds.drop (k+1)=rest:=by rw[←List.tail_drop,hr,List.tail_cons]
  have hsr':src=bf++d++(concat rest++bh):=by
   rw[hsr,concat_cons,append_assoc,append_assoc]
  rw[List.length_cons,loadBuffers,htb k d hd,concat_cons,size_append,←add_assoc]
  split
  ·next hz=>
   have hn:=size_eq_zero_iff.1 hz
   rw[hn,append_empty]at hsr'
   rw[hz]
   exact ih (h.skip hd hz) ht hlt hsr'
  next hp=>
  have hs:=hs d (List.mem_of_getElem? hd)
  obtain⟨b,hb,hne⟩:=(h.next hd hp hs.1).resolve_left fun hf=>hf.2 hs
  have hby:src.extract bf.size (bf.size+d.size)=d:=by
   rw[hsr',append_assoc]
   exact (extract_append_size_add (i:=0)).trans (extract_append_eq_left rfl)
  grind
lemma reserve_ne_success (a:Arena)(k sz:Nat):a.reserve k sz≠.error .success:=by
 unfold reserve
 dsimp only
 split_ifs<;>nofun
lemma loadBuffers_short {ds:List Bytes}{src:Bytes}{k i:Nat}
 (ht:∀j d,ds[j]?=some d→src.le (6+12*(k+j)+8) 4=d.size)
 (hi:i ≤ src.size)(hsh:src.size < i+(concat ds).size):
 ∃c≠.success,loadBuffers src ds.length k i a=.error (.code c):=by
 induction ds generalizing k i a with
 | nil=>exact absurd hsh (not_lt.2 hi)
 | cons d ds ih=>
  have hr:∀j e,ds[j]?=some e→src.le (6+12*(k+1+j)+8) 4=e.size:=by
   intro j e he
   have:=ht (j+1) e he
   rwa[show k+(j+1)=k+1+j by omega]at this
  have hf:src.le (6+12*k+8) 4=d.size:=ht 0 d rfl
  rw[concat_cons,size_append,←add_assoc]at hsh
  rw[List.length_cons,loadBuffers,hf]
  split
  ·next hz=>exact ih hr hi (by rwa[hz]at hsh)
  ·split
   ·next c hc=>exact⟨c,fun h=>a.reserve_ne_success k d.size (h▸hc),rfl⟩
   ·split
    ·exact⟨.corruptFile,nofun,rfl⟩
    ·exact ih hr (by omega) hsh

/-! ## Reading the places -/
def withRelocations (a:Arena)(places:Array Ref):Arena:={a with relocations:=places}
lemma exchange_withRelocations (f:Nat→Nat)(ps:List Ref)(a:Arena)(places:Array Ref):
 exchange f ps (a.withRelocations places)=(exchange f ps a).withRelocations places:=by
 induction ps generalizing a with
 | nil=>rfl
 | cons r _ ih=>exact ih (a.store64 r (f (a.load64 r)))
lemma holds_of_holdsAddress (h:a.holdsAddress r):a.Holds r:=by
 simp only[holdsAddress,Bool.and_eq_true,decide_eq_true_eq]at h
 simp only[Holds]
 omega
lemma SameLayout.holdsAddress (h:SameLayout a b):b.holdsAddress r=a.holdsAddress r:=by
 simp only[Arena.holdsAddress,h.count,h.base,h.size]
def listed (src:Bytes)(i:Nat):List Ref:=
 (List.range ((src.size-i)/8)).map fun k=>ofNat64 (src.le (i+8*k) 8)
lemma listed_end (h:src.size < i+8):listed src i=[]:=by
 rw[listed,div_eq_of_lt (by omega),List.range_zero,List.map_nil]
lemma listed_next (h:i+8 ≤ src.size):listed src i=ofNat64 (src.le i 8)::listed src (i+8):=by
 rw[listed,show (src.size-i)/8=(src.size-(i+8))/8+1 by omega,List.range_succ_eq_map,List.map_cons,List.map_map]
 refine congrArg _ (List.map_congr_left fun k _=>?_)
 rw[Function.comp_apply,show i+8*k.succ=i+8+8*k by omega]
lemma listed_listing (bf:Bytes)(hbe:bh.size<8)
 (hw:∀r∈ps,r.buffer<2^32∧r.toNat64<256^8):
 listed (bf++(concat (listing ps)++bh)) bf.size=ps:=by
 induction ps generalizing bf with
 | nil=>
  refine listed_end ?_
  simp only[size_append,listing,List.map_nil,concat,List.foldr_nil,size_empty]
  omega
 | cons r ps ih=>
  obtain⟨⟨hb,hwo⟩,hw⟩:=List.forall_mem_cons.1 hw
  have hs:(bf++digits r.toNat64 8).size=bf.size+8:=by rw[size_append,size_digits]
  have hri:le (bf++digits r.toNat64 8) bf.size 8=_:=
   le_append_right bf (digits r.toNat64 8) 0 8
  have hsr:bf++(concat (listing (r::ps))++bh)=bf++digits r.toNat64 8++(concat (listing ps)++bh):=by
   rw[listing,List.map_cons,concat_cons,append_assoc,append_assoc]
   rfl
  have hr:=ih (bf++digits r.toNat64 8) hw
  rw[hs]at hr
  rw[hsr,listed_next (by rw[size_append];omega),hr,le_append_left _ (by omega),hri,le_digits,mod_eq_of_lt hwo,
   ofNat64_toNat64 hb]
lemma loadPlaces_eq {src:Bytes}{fl i:Nat}(hfu:src.size < i+fl)
 (ha:(listed src i).Pairwise Apart)(hf:∀r∈listed src i,
  a.holdsAddress r→(a.resolve? (ofNat64 (a.load64 r))).isSome):
 loadPlaces src fl i a=if (listed src i).all a.holdsAddress then
  .ok ((exchange a.addressWord (listed src i) a).withRelocations (a.relocations++(listed src i).toArray))
  else .error (.code .corruptFile):=by
 induction fl generalizing a i with
 | zero=>simp[loadPlaces,listed_end (show src.size < i+8 by omega),exchange,withRelocations]
 | succ _ ih=>
  rw[loadPlaces]
  split
  next he=>simp[listed_end he,exchange,withRelocations]
  next he=>
  rw[listed_next (Nat.le_of_not_lt he)]at ha hf⊢
  generalize ofNat64 (src.le i 8)=r at *
  obtain⟨hr,hps⟩:=List.pairwise_cons.1 ha
  obtain⟨hfo,hf⟩:=List.forall_mem_cons.1 hf
  cases hh:a.holdsAddress r with
  | false=>simp[hh]
  | true=>
   have had:=toAddress?_of_isSome (holds_of_holdsAddress hh) (hfo hh)
   have hl:SameLayout a ((a.store64 r (a.addressWord (a.load64 r))).addRelocation r):=
    (sameLayout_store64 a r _).trans ⟨rfl,fun _=>rfl,fun _=>rfl⟩
   simp only[had,List.all_cons,hh]
   refine (ih (by omega) hps fun q hq hqh=>?_).trans ?_
   ·have hs:((a.store64 r (a.addressWord (a.load64 r))).addRelocation r).load64 q=
     a.load64 q:=load64_store64_apart (hr q hq)
    rw[hl.resolve?,hs]
    exact hf q hq (hl.holdsAddress.symm.trans hqh)
   ·rw[hl.addressWord,show holdsAddress _=a.holdsAddress from
     funext fun q=>hl.holdsAddress,exchange_cons,
     show addRelocation _ r=withRelocations _ _ from rfl,exchange_withRelocations]
    simp[withRelocations,store64]

/-! ## Reading what was written -/
lemma load_header (hs:src=a.header++rs)(hcn:a.count ≤ maxBuffers):
 load src=if src.size<6+12*a.count then .error (.code .corruptFile)
  else loadBuffers src a.count 0 (6+12*a.count) (create a.count loadedInitial) >>=
   fun p=>loadPlaces src (src.size+1) p.1 p.2:=by
 have hsi:6 ≤ src.size:=by
  rw[hs,size_append,size_header]
  omega
 have hb:src=magic++(ofList [version,a.count.toUInt8]++rs):=by rw[hs,header,append_assoc]
 have hm:src.extract 0 4=magic:=by
  rw[hb]
  exact extract_append_eq_left rfl
 have hby:∀j<2,src.byteAt (4+j)=(ofList [version,a.count.toUInt8]).byteAt j:=by
  intro j hj
  have hf:magic.size=4:=rfl
  have ht:(ofList [version,a.count.toUInt8]).size=2:=rfl
  rw[hb,byteAt_append,if_neg (by omega),byteAt_append,hf,Nat.add_sub_cancel_left,if_pos (by omega)]
 have hv:src.byteAt 4=version:=hby 0 (by decide)
 have hn:(src.byteAt 5).toNat=a.count:=by
  simp only[maxBuffers]at hcn
  rw[show src.byteAt 5=a.count.toUInt8 from hby 1 (by decide)]
  exact mod_eq_of_lt (by omega)
 have hc:(decide (src.size<6)||src.extract 0 4 != magic)=false:=by
  rw[hm,decide_eq_false (by omega)]
  decide
 rw[load,hc,hn,if_neg (by decide),if_neg (not_not.2 hv),if_neg (not_lt.2 hcn)]
lemma length_contents (a:Arena):a.contents.length=a.count:=by simp[contents]
lemma getElem?_contents (h:i<a.count):a.contents[i]?=some (a.bufferAt i).data:=by simp[contents,h]
lemma sizes_contents (h:SameLayout a b):b.contents.map (·.size)=a.contents.map (·.size):=by
 simp only[contents,h.count,List.map_map]
 exact List.map_congr_left fun i _=>h.size i
lemma size_concat_congr {xs ys:List Bytes}(h:xs.map (·.size)=ys.map (·.size)):
 (concat xs).size=(concat ys).size:=by
 induction xs generalizing ys with
 | nil=>rw[List.map_eq_nil_iff.1 h.symm]
 | cons x _ ih=>
  obtain⟨y,ys,rfl,hy,hys⟩:=List.map_eq_cons_iff.1 h.symm
  rw[concat_cons,concat_cons,size_append,size_append,ih hys.symm,hy]
lemma le_table (hsr:src=concat a.front++rs)
 (hds:ds.map (·.size)=a.contents.map (·.size))(hse:∀d∈ds,Seats d.size)(j:Nat)(d:Bytes)
 (hd:ds[j]?=some d):src.le (6+12*j+8) 4=d.size:=by
 have hs:(a.contents.map (·.size))[j]?=some d.size:=by rw[←hds,List.getElem?_map,hd,map_some]
 have hj:j<(a.contents.map (·.size)).length:=(List.getElem?_eq_some_iff.1 hs).1
 have hlt:d.size<256^4:=(hse d (List.mem_of_getElem? hd)).1
 rw[hsr,front,concat_cons,append_assoc,add_assoc,←a.size_header,
  le_append_right,le_append_left _ (by rw[size_entries];omega),le_entries _ hs,mod_eq_of_lt hlt]
lemma loading_create (h:ds.length ≤ maxBuffers):Loading ds 0 (create ds.length loadedInitial) where
 count:=rfl
 most:=h
 size:=Array.size_replicate
 initial:=rfl
 relocations:=rfl
 seats:=nofun
 buffer i:=by
  simp only[create,bufferAt,Array.getD_eq_getD_getElem?,Array.getElem?_replicate]
  split<;>rfl
lemma Loading.data (h:Loading ds ds.length b)(hd:ds[i]?=some d):b.bufferAt i=seated i d:=by
 rw[h.buffer,if_pos (List.getElem?_eq_some_iff.1 hd).1,List.getD_eq_getElem?_getD,hd,getD_some]
lemma Loading.place? (h:Loading ds ds.length b)(hr:r.buffer<ds.length)
 (ho:r.offset<(b.bufferAt r.buffer).data.size):
 b.address r<256^8∧b.place? (b.address r)=some r:=by
 have hbu:∀i<ds.length,(b.bufferAt i).data.size≠0→∃c≤2^32,
  (b.bufferAt i).base=placement i c∧(b.bufferAt i).data.size<2^32:=by
  intro i hi hs
  have hse:=h.seats i hi
  rw[h.buffer,if_pos hi,data_seated]at hs⊢
  rw[seated,if_neg hs]
  exact⟨_,hse.2,rfl,hse.1⟩
 obtain⟨c,hc,hb,hs⟩:=hbu r.buffer hr (by omega)
 have hm:ds.length≤16:=h.most
 have ha:b.address r=(r.buffer+1)*0x100000000000000+c+r.offset:=by
  rw[address,hb,if_neg (by rw[placement];omega),placement]
 have hp:b.address r≠0:=by omega
 have hso:(b.place? (b.address r)).isSome:=
  isSome_place?_iff.2 (.inr ⟨r.buffer,h.count▸hr,by rw[hb,placement];omega,
   by rw[hb,placement];omega,by rw[hb,placement];omega⟩)
 obtain⟨q,hq⟩:=isSome_iff_exists.1 hso
 obtain⟨hqb,-,hqv,hqo⟩:=place?_eq_some hq hp
 obtain⟨c',hc',hb',hs'⟩:=hbu q.buffer (h.count▸hqb) (by omega)
 rw[hb',placement]at hqv
 have hsa:q.buffer=r.buffer:=by omega
 rw[hsa,hb,placement,placement]at hb'
 rw[hq,some.injEq]
 cases q
 cases r
 simp only[Ref.mk.injEq]at *
 omega
end Arena
end PatternScan
