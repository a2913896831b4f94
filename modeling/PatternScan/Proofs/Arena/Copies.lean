import PatternScan.Proofs.Arena.Loading
/-! What was saved can be loaded: the loaded arena has the same bytes, and the addresses at its places
name the same bytes as before. -/
open ByteArray PatternScan.Arena.Ref
namespace PatternScan.Arena
open Bytes
attribute [local irreducible] setLe le
variable {a b:Arena}{r:Ref}{src:Bytes}
lemma Loading.set {ds:List Bytes}{k:Nat}(h:Loading ds k a)(d:Bytes):Loading (ds.set k d) k a:=by
 have hs:∀i<k,(ds.set k d).getD i empty=ds.getD i empty:=
  fun i hi=>by simp only[List.getD_eq_getElem?_getD,List.getElem?_set_ne (Nat.ne_of_gt hi)]
 refine⟨h.count.trans List.length_set.symm,List.length_set.trans_le h.most,h.size,h.initial,
  h.relocations,fun i hi=>hs i hi▸h.seats i hi,fun i=>(h.buffer i).trans ?_⟩
 split
 ·next hi=>rw[hs i hi]
 ·rfl
lemma Loading.loadBuffers {ds:List Bytes}{k n:Nat}(h:Loading ds k a)(hn:k+n=ds.length)(i:Nat):
 (∃c≠.success,loadBuffers src n k i a=.error (.code c))∨
  ∃j b ds,loadBuffers src n k i a=.ok (j,b)∧Loading ds ds.length b:=by
 induction n generalizing ds k i a with
 | zero=>exact .inr ⟨i,a,ds,rfl,hn▸h⟩
 | succ n ih=>
  have hk:k<ds.length:=by omega
  have hse (d:Bytes):(ds.set k d)[k]?=some d:=by simp[hk]
  have hl (d:Bytes):k+1+n=(ds.set k d).length:=by
   rw[List.length_set]
   omega
  rw[Arena.loadBuffers]
  split
  ·exact ih ((h.set empty).skip (hse _) rfl) (hl _) i
  next hp=>
  split
  ·next c hc=>exact .inl ⟨c,fun he=>a.reserve_ne_success k _ (he▸hc),rfl⟩
  next b hb=>
  split
  ·exact .inl ⟨.corruptFile,by decide,rfl⟩
  next hr=>
  have hs:(src.extract i (i+src.le (6+12*k+8) 4)).size=src.le (6+12*k+8) 4:=by
   rw[size_extract]
   omega
  have hlt:src.le (6+12*k+8) 4<2^32:=
   (le_eq_mod fun j hj=>(le_digit src hj).symm).trans_lt (Nat.mod_lt _ (by decide))
  rcases (h.set _).next (hse (src.extract i (i+src.le (6+12*k+8) 4)))
   (by rwa[hs]) (by rwa[hs]) with⟨hf,-⟩ | ⟨b',hb',hne⟩
  ·rw[hs,hb]at hf
   cases hf
  ·rw[hs,hb]at hb'
   cases hb'
   exact ih hne (hl _) _
lemma toAddress?_sameLayout (h:a.toAddress? r=some b):SameLayout a (b.addRelocation r):=by
 obtain⟨word,-,rfl⟩:=Option.map_eq_some_iff.1 h
 exact (sameLayout_store64 a r word).trans ⟨rfl,fun _=>rfl,fun _=>rfl⟩
lemma loadPlaces_holds {f i:Nat}(h:loadPlaces src f i a=.ok b)
 (ha:∀r∈a.relocations,a.holdsAddress r):∀r∈b.relocations,b.holdsAddress r:=by
 fun_induction loadPlaces src f i a with
 | case1 | case2=>exact Except.ok.inj h▸ha
 | case3 | case4=>cases h
 | case5 _ i a _ r hh _ had ih=>
  refine ih h fun q hq=>?_
  rw[(toAddress?_sameLayout had).holdsAddress]
  obtain⟨word,-,rfl⟩:=Option.map_eq_some_iff.1 had
  rcases Array.mem_push.1 hq with hq|rfl
  ·exact ha q hq
  ·simpa using hh
lemma listed_of_mem_consulted {f i k:Nat}(h:k∈consulted src f i a):∃r∈listed src i,r.buffer=k:=by
 fun_induction consulted src f i a with
 | case1 | case2=>cases h
 | case3 _ i a he r _ | case4 _ i a he r _ _=>
  rw[listed_next (Nat.le_of_not_lt he)]
  exact⟨r,List.mem_cons_self,(List.mem_singleton.1 h).symm⟩
 | case5 _ i a he r _ _ _ ih=>
  rw[listed_next (Nat.le_of_not_lt he)]
  rcases List.mem_cons.1 h with rfl|h
  ·exact⟨r,List.mem_cons_self,rfl⟩
  ·obtain⟨q,hq,hk⟩:=ih h
   exact⟨q,List.mem_cons_of_mem _ hq,hk⟩
lemma consulted_of_loadPlaces {f i:Nat}(h:loadPlaces src f i a=.ok b):
 b.count=a.count∧∀k∈consulted src f i a,k<a.count:=by
 fun_induction loadPlaces src f i a with
 | case1=>
  cases h
  exact⟨rfl,nofun⟩
 | case2 _ i a he=>
  cases h
  rw[consulted,if_pos he]
  exact⟨rfl,nofun⟩
 | case3 | case4=>cases h
 | case5 _ i a he r hh c had ih=>
  have hl:=toAddress?_sameLayout had
  obtain⟨hc,hk⟩:=ih h
  refine⟨hc.trans hl.count,?_⟩
  have hr:a.holdsAddress r:=by simpa using hh
  rw[consulted,if_neg he]
  dsimp only
  rw[if_neg hh,had]
  refine List.forall_mem_cons.2 ⟨?_,fun k hm=>(hk k hm).trans_eq hl.count⟩
  simp only[holdsAddress,Bool.and_eq_true,decide_eq_true_eq]at hr
  exact hr.1.2
def loadContents (src:Bytes):Except StreamError (Nat×Arena):=
 let count:=(src.byteAt 5).toNat
 loadBuffers src count 0 (6+12*count) (create count loadedInitial)
lemma load_cases (src:Bytes):(∃c≠.success,load src=.error (.code c))∨
 ∃i a ds,loadContents src=.ok (i,a)∧Loading ds ds.length a∧load src=loadPlaces src (src.size+1) i a:=by
 unfold load
 dsimp only
 split_ifs with _ _ hm
 ·exact .inl ⟨.invalidFile,nofun,rfl⟩
 ·exact .inl ⟨.unsupportedFileVersion,nofun,rfl⟩
 ·exact .inl ⟨.invalidFile,nofun,rfl⟩
 ·exact .inl ⟨.corruptFile,nofun,rfl⟩
 have hcn:(List.replicate (src.byteAt 5).toNat empty).length=_:=
  List.length_replicate
 have hcr:=loading_create (hcn.trans_le (not_lt.1 hm))
 rw[hcn]at hcr
 rcases hcr.loadBuffers (by rw[hcn,zero_add]) (6+12*(src.byteAt 5).toNat) with
  ⟨c,hne,hc⟩ | ⟨i,a,ds,hok,ha⟩
 ·exact .inl ⟨c,hne,by rw[hc];rfl⟩
 ·exact .inr ⟨i,a,ds,hok,ha,by rw[hok];rfl⟩
def Names (a:Arena)(r:Ref):Prop:=
 r=null∨r.buffer<a.count∧r.offset<(a.bufferAt r.buffer).data.size
instance (a:Arena)(r:Ref):Decidable (a.Names r):=inferInstanceAs (Decidable (_∨_))
lemma Loading.resolve {ds:List Bytes}(h:Loading ds ds.length a)(hr:a.Names r):
 ∃word,a.resolve? r=some word∧a.place? (word%256^8)=some r:=by
 by_cases hn:r=null
 ·exact⟨0,by rw[resolve?,if_pos hn],by rw[hn];exact place?_zero a⟩
 ·obtain⟨hbu,ho⟩:=hr.resolve_left hn
  obtain⟨hlt,hpl⟩:=h.place? (h.count▸hbu) ho
  refine⟨a.address r,?_,by rw[Nat.mod_eq_of_lt hlt,hpl]⟩
  rw[resolve?,if_neg hn,if_pos (by simp[hbu,ho.le])]

/-- What no test makes sure of before the table is read: each place of a list is in a buffer of the arena, the places
are apart, and each reference at them is null or names a byte. -/
structure Vouched (a:Arena)(ps:List Ref):Prop where
 known:∀r∈ps,r.buffer<a.count
 apart:ps.Pairwise Apart
 names:∀r∈ps,a.holdsAddress r→a.Names (ofNat64 (a.load64 r))
lemma vouched_iff {ps:List Ref}:a.Vouched ps↔(∀r∈ps,r.buffer<a.count)∧ps.Pairwise Apart∧
 ∀r∈ps,a.holdsAddress r→a.Names (ofNat64 (a.load64 r)):=⟨fun h=>⟨h.1,h.2,h.3⟩,fun h=>⟨h.1,h.2.1,h.2.2⟩⟩
instance (a:Arena)(ps:List Ref):Decidable (a.Vouched ps):=decidable_of_iff' _ vouched_iff

/-- The places of a loaded arena lie in its buffers, and no other buffer was looked up. If the list of the stream is
vouched for, no other buffer is looked up on the way, and the stream is refused, or each address of the arena is null
or that of a byte of a buffer. -/
theorem load_places (src:Bytes) :
 (∀ b,load src = .ok b → (∀ r∈b.relocations,b.holdsAddress r) ∧
  ∀ i a,loadContents src = .ok (i,a) → ∀ k∈consulted src (src.size+1) i a,k < b.count) ∧
  ((∀ i a,loadContents src = .ok (i,a) → a.Vouched (listed src i)) →
   (∀ i a,loadContents src = .ok (i,a) → ∀ k∈consulted src (src.size+1) i a,k < a.count) ∧
   ((∃ c ≠ .success,load src = .error (.code c)) ∨
    ∃ a,load src = .ok a ∧ ∀ r∈a.relocations,∃ target,a.follow? r = some target)) := by
 have hknown (h:∀ i a,loadContents src = .ok (i,a) → a.Vouched (listed src i)) (i a)
  (hconts:loadContents src = .ok (i,a)) (k) (hk:k∈consulted src (src.size+1) i a):k < a.count:=by
  obtain⟨r,hr,rfl⟩:=listed_of_mem_consulted hk
  exact (h i a hconts).known r hr
 rcases load_cases src with⟨c,hne,hc⟩|⟨i,a,ds,hconts,ha,hload⟩
 ·rw[hc]
  exact⟨fun _ h=>(by cases h),fun h=>⟨hknown h,.inl ⟨c,hne,rfl⟩⟩⟩
 refine⟨fun b hb=>⟨?_,?_⟩,fun h=>⟨hknown h,?_⟩⟩
 ·refine loadPlaces_holds (hload.symm.trans hb) fun r hr=>?_
  rw[ha.relocations]at hr
  exact absurd hr (Array.not_mem_empty r)
 ·intro j a' hconts' k hk
  obtain⟨rfl,rfl⟩:=Prod.mk.inj (Except.ok.inj (hconts.symm.trans hconts'))
  obtain⟨hcount,hinside⟩:=consulted_of_loadPlaces (hload.symm.trans hb)
  exact hcount▸hinside k hk
 obtain⟨-,hapart,hnames⟩:=h i a hconts
 have hpls:=loadPlaces_eq (show src.size < i+(src.size+1) by omega) hapart fun r hr hheld=>by
  obtain⟨word,hword,-⟩:=ha.resolve (hnames r hr hheld)
  exact Option.isSome_iff_exists.2 ⟨word,hword⟩
 rw[hload,hpls]
 split
 next hheld=>
  refine .inr ⟨_,rfl,fun r hr=>⟨Ref.ofNat64 (a.load64 r),?_⟩⟩
  have hr:r∈listed src i:=by simpa[withRelocations,ha.relocations]using hr
  have hheld:=List.all_eq_true.1 hheld r hr
  obtain⟨word,hword,hpl⟩:=ha.resolve (hnames r hr hheld)
  refine (congrFun (sameLayout_exchange a.addressWord (listed src i) a).place? _).trans ?_
  rw[←hpl,show word=a.addressWord (a.load64 r) by rw[addressWord,hword,Option.getD_some]]
  exact congrArg a.place? (load64_exchange hapart hr (holds_of_holdsAddress hheld))
 ·exact .inl ⟨.corruptFile,by decide,rfl⟩
def oneBuffer (size:UInt8)(rest:List UInt8):Bytes:=
 magic++ofList ([version,1,18,0,0,0,0,0,0,0,size,0,0,0]++rest)
def vouchedStream:Bytes:=oneBuffer 16 [0,0,0,0,8,0,0,0,255,255,255,255,255,255,255,255,
 0,0,0,0,0,0,0,0,0,0,0,0,8,0,0,0]
theorem load_places_vouched : ∃ a,load vouchedStream=.ok a∧a.relocations.size=2∧
 (∀ i c,loadContents vouchedStream=.ok (i,c)→∀ k∈consulted vouchedStream (vouchedStream.size+1) i c,k<c.count)∧
 ∀ r∈a.relocations,∃ target,a.follow? r=some target:=by
 have hsize:(load vouchedStream).map (·.relocations.size)=.ok 2:=by decide +kernel
 have hconts:((loadContents vouchedStream).map fun p=>
  decide (p.2.Vouched (listed vouchedStream p.1)))=.ok true:=by decide +kernel
 obtain⟨hinside,⟨c,-,hc⟩|⟨a,ha,hfollow⟩⟩:=(load_places vouchedStream).2 fun i a hload=>by
  rw[hload]at hconts
  exact of_decide_eq_true (Except.ok.inj hconts)
 ·rw[hc]at hsize
  cases hsize
 ·rw[ha]at hsize
  exact⟨a,ha,Except.ok.inj hsize,hinside,hfollow⟩

/-- An address right behind a buffer, one that was changed through a second place over it, a reference
that names no buffer, and a place in a buffer that there is not, which is looked up before it is refused. -/
theorem load_places_astray :
 (load (oneBuffer 8 [0,0,0,0,8,0,0,0,0,0,0,0,0,0,0,0])).map
  (fun a=>(a.relocations.toList,a.follow? ⟨0,0⟩))=.ok ([⟨0,0⟩],none)∧
  (load (oneBuffer 16 [255,255,255,255,255,255,255,255,0,0,0,0,0,0,0,0,0,0,0,0,0,0,0,0,0,0,0,0,4,0,0,0])).map
   (fun a=>(a.relocations.toList,a.follow? ⟨0,0⟩))=.ok ([⟨0,0⟩,⟨0,4⟩],none)∧
  (load (oneBuffer 8 [5,0,0,0,0,0,0,0,0,0,0,0,0,0,0,0])).map
   (·.relocations)=.error .outside∧
  let strange:=oneBuffer 8 [0,0,0,0,0,0,0,0,5,0,0,0,0,0,0,0]
  (loadContents strange).map (fun p=>(p.2.count,consulted strange (strange.size+1) p.1 p.2))=.ok (1,[5])∧
  (load strange).map (·.relocations)=.error (.code .corruptFile):=by
 decide +kernel
end PatternScan.Arena
namespace PatternScan.Arena
open Option
open Bytes
variable {src rs:Bytes}{i n:Nat}
attribute [local irreducible] setLe le
variable {a b:Arena}{r:Ref}{ps:List Ref}
lemma load64_image (ha:a.Bounded)(ht:a.Tidy)(hr:r∈a.relocations.toList){t:Ref}
 (hf:a.follow? r=some t):a.image.load64 r=t.toNat64:=by
 rw[image,load64_exchange ht.apart hr (ht.holds r hr),referenceWord,show a.place? _=_ from hf,
  getD_some,Nat.mod_eq_of_lt (toNat64_lt ha hf).2]
lemma load_front (hs:src=concat a.front++rs)(hc:a.count ≤ maxBuffers):
 load src=loadBuffers src a.count 0 (6+12*a.count) (create a.count loadedInitial) >>=
  fun p=>loadPlaces src (src.size+1) p.1 p.2:=by
 have hh:src=a.header++(concat (entries (6+12*a.count) (a.contents.map (·.size)))++rs):=by
  rw[hs,front,concat_cons,append_assoc]
 have hsi:¬src.size<6+12*a.count:=by
  rw[hs,size_append,size_front]
  omega
 rw[load_header hh hc,if_neg hsi]
structure Loadable (a:Arena):Prop extends Tidy a where
 count:a.count ≤ maxBuffers
 most:∀i<a.count,(a.bufferAt i).data.size ≤ mostLoaded
namespace Loadable
lemma bounded (h:a.Loadable):a.Bounded:=
 ⟨h.count,fun i hi=>(h.most i hi).trans (by decide)⟩
lemma image_seats (h:a.Loadable):∀d∈a.image.contents,Seats d.size:=by
 intro d hd
 obtain⟨i,hi,rfl⟩:=List.mem_map.1 hd
 rw[image,(sameLayout_exchange ..).size]
 exact seats_of_le (h.most i ((sameLayout_exchange ..).count▸List.mem_range.1 hi))
end Loadable
lemma sameLayout_image (a:Arena):SameLayout a a.image:=sameLayout_exchange ..
lemma length_image (a:Arena):a.image.contents.length=a.count:=by rw[length_contents,a.sameLayout_image.count]
section
variable (hb:Loading a.image.contents a.image.contents.length b)
include hb
lemma Loading.bufferAt_image (hi:i<a.count):b.bufferAt i=seated i (a.image.bufferAt i).data:=
 hb.data (getElem?_contents (a.sameLayout_image.count▸hi))
lemma Loading.follow (h:a.Loadable)(hr:r∈a.relocations.toList){target:Ref}
 (hf:a.follow? r=some target):
 ofNat64 (b.load64 r)=target∧(b.resolve? target).isSome∧
  b.place? (b.addressWord (b.load64 r)%256^8)=some target:=by
 have hw:ofNat64 (b.load64 r)=target:=by
  rw[load64,hb.bufferAt_image (h.buffer r hr),data_seated]
  exact (congrArg ofNat64 (load64_image h.bounded h.toTidy hr hf)).trans
   (ofNat64_toNat64 (toNat64_lt h.bounded hf).1)
 refine⟨hw,?_⟩
 rw[addressWord,hw]
 by_cases hv:a.load64 r=0
 ·rw[follow?,hv]at hf
  obtain rfl:=some.inj hf
  exact⟨rfl,place?_zero b⟩
 obtain⟨hbu,-,-,ho⟩:=place?_eq_some hf hv
 have hs:(b.bufferAt target.buffer).data.size=(a.bufferAt target.buffer).data.size:=by
  rw[hb.bufferAt_image hbu,data_seated,a.sameLayout_image.size]
 obtain⟨hlt,hpl⟩:=hb.place? (length_image a▸hbu) (hs▸ho)
 have hn:target≠null:=by
  rintro rfl
  have hc:=h.count
  simp only[null,maxBuffers]at hbu hc
  omega
 have hre:b.resolve? target=some (b.address target):=by
  have hc:target.buffer<b.count:=by rwa[hb.count,length_image]
  rw[resolve?,if_neg hn,if_pos (by simp[hc,hs,ho.le])]
 rw[hre]
 exact⟨rfl,by rw[getD_some,Nat.mod_eq_of_lt hlt,hpl]⟩
lemma Loading.holdsAddress (h:a.Loadable)(hr:r∈a.relocations.toList):b.holdsAddress r:=by
 have hh:=h.holds r hr
 have hs:(b.bufferAt r.buffer).data.size=(a.bufferAt r.buffer).data.size:=by
  rw[hb.bufferAt_image (h.buffer r hr),data_seated,a.sameLayout_image.size]
 have hba:(b.bufferAt r.buffer).base≠0:=by
  have hp:(a.image.bufferAt r.buffer).data.size≠0:=by
   rw[a.sameLayout_image.size]
   simp only[Holds]at hh
   omega
  rw[hb.bufferAt_image (h.buffer r hr),seated,if_neg hp]
  simp only[placement]
  omega
 have hc:r.buffer<b.count:=by
  rw[hb.count,length_image]
  exact h.buffer r hr
 simp only[Holds]at hh
 simp only[Arena.holdsAddress,Bool.and_eq_true,decide_eq_true_eq]
 omega
end
lemma byteAt_exchange {f:Nat→Nat}{j:Nat}(h:∀r∈ps,r.buffer=i→j<r.offset∨r.offset+8≤j):
 ((exchange f ps a).bufferAt i).data.byteAt j=(a.bufferAt i).data.byteAt j:=by
 induction ps generalizing a with
 | nil=>rfl
 | cons r _ ih=>
  obtain⟨hr,hps⟩:=List.forall_mem_cons.1 h
  rw[exchange_cons,ih hps,bufferAt_store64]
  split
  ·next hi=>rw[byteAt_setLe,if_neg (by omega)]
  ·rfl

/-- A copy of an arena as far as its list of places goes: there the addresses name the same bytes, the other places
hold references, and all other bytes are the same. -/
structure Copies (b a:Arena):Prop where
 count:b.count=a.count
 size:∀i<a.count,(b.bufferAt i).data.size=(a.bufferAt i).data.size
 byte:∀i<a.count,∀j,(∀r∈a.relocations,r.buffer=i→j<r.offset∨r.offset+8≤j)→
   (b.bufferAt i).data.byteAt j=(a.bufferAt i).data.byteAt j
 target:∀r∈b.relocations,b.follow? r=a.follow? r
 rest:∀r∈a.relocations,r∉b.relocations→b.load64 r=a.referenceWord (a.load64 r)
lemma Loading.copies (hb:Loading a.image.contents a.image.contents.length b)(h:a.Loadable)
 (hf:∀r∈a.relocations.toList,(a.follow? r).isSome)(k:Nat):
 ((exchange b.addressWord (a.relocations.toList.take k) b).withRelocations
  (a.relocations.toList.take k).toArray).Copies a:=by
 have hl:=sameLayout_exchange b.addressWord (a.relocations.toList.take k) b
 have hm:∀r∈a.relocations.toList.take k,r∈a.relocations.toList:=
  fun r hr=>List.mem_of_mem_take hr
 refine⟨hl.count.trans (hb.count.trans (length_image a)),fun i hi=>?_,fun i hi j hj=>?_,
  fun r hr=>?_,fun r hr hre=>?_⟩
 ·refine (hl.size i).trans ?_
  rw[hb.bufferAt_image hi,data_seated,a.sameLayout_image.size]
 ·have hj:∀r∈a.relocations.toList,r.buffer=i→j<r.offset∨r.offset+8≤j:=
   fun r hr=>hj r (Array.mem_toList_iff.1 hr)
  refine (byteAt_exchange fun r hr=>hj r (hm r hr)).trans ?_
  rw[hb.bufferAt_image hi,data_seated]
  exact byteAt_exchange hj
 ·have hr:r∈a.relocations.toList.take k:=List.mem_toArray.1 hr
  obtain⟨t,ht⟩:=isSome_iff_exists.1 (hf r (hm r hr))
  have hh:b.Holds r:=holds_of_holdsAddress (hb.holdsAddress h (hm r hr))
  obtain⟨-,-,hpl⟩:=hb.follow h (hm r hr) ht
  refine Eq.trans ?_ ht.symm
  rw[←hpl,←load64_exchange (h.apart.sublist (List.take_sublist ..)) hr hh]
  exact congrFun hl.place? _
 have hr:=Array.mem_toList_iff.2 hr
 have hre:r∈a.relocations.toList.drop k:=by
  rw[←List.take_append_drop k a.relocations.toList]at hr
  exact (List.mem_append.1 hr).resolve_left fun hr=>hre (List.mem_toArray.2 hr)
 have ha:=h.apart
 rw[←List.take_append_drop k a.relocations.toList]at ha
 have ho q (hq:q∈a.relocations.toList.take k):=
  ((List.pairwise_append.1 ha).2.2 q hq r hre).symm
 refine (load64_exchange_apart ho).trans ?_
 obtain⟨t,ht⟩:=isSome_iff_exists.1 (hf r hr)
 rw[load64,hb.bufferAt_image (h.buffer r hr),data_seated]
 refine (load64_image h.bounded h.toTidy hr ht).trans ?_
 rw[referenceWord,show a.place? _=_ from ht,getD_some]
lemma load_stream (h:a.Loadable)(hf:∀r∈a.relocations.toList,(a.follow? r).isSome)
 (k:Nat){bh:Bytes}(hbe:bh.size<8):
 ∃b,load (concat a.front++(concat a.image.contents ++
  (concat (listing (a.relocations.toList.take k))++bh)))=.ok b∧
  b.relocations.toList=a.relocations.toList.take k∧b.Copies a:=by
 obtain⟨qs,hqs⟩:∃qs,qs=a.relocations.toList.take k:=⟨_,rfl⟩
 obtain⟨src,hs⟩:∃src,src=concat a.front++(concat a.image.contents++(concat (listing qs)++bh)):=⟨_,rfl⟩
 have hse:=h.image_seats
 obtain⟨b,hb,hl⟩:=loadBuffers_eq (loading_create (length_image a▸h.count)) List.drop_zero
  zero_le hs (le_table hs (sizes_contents a.sameLayout_image) hse) hse
 refine⟨(exchange b.addressWord qs b).withRelocations qs.toArray,?_,hqs▸rfl,hqs▸hl.copies h hf k⟩
 rw[length_image,size_front]at hb
 have hm:∀r∈qs,r∈a.relocations.toList:=fun r hr=>List.mem_of_mem_take (hqs▸hr)
 have hls:listed src (concat a.front++concat a.image.contents).size=qs:=by
  rw[hs,←append_assoc]
  refine listed_listing _ hbe fun r hr=>?_
  have hc:=h.count
  have hbu:=h.buffer r (hm r hr)
  have hh:=h.holds r (hm r hr)
  have hbo:=h.most _ hbu
  have hmo:mostLoaded=2748579840:=by decide
  simp only[Holds,maxBuffers,toNat64]at *
  omega
 have hp:=@loadPlaces_eq b src (src.size+1) (concat a.front++concat a.image.contents).size (by omega)
  (by rw[hls,hqs];exact h.apart.sublist (List.take_sublist ..)) fun r hr _=>?_
 ·rw[hls,if_pos (List.all_eq_true.2 fun r hr=>hl.holdsAddress h (hm r hr)),
   size_append,size_front,hl.relocations,Array.empty_append]at hp
  rw[←hqs,←hs,load_front hs h.count,hb]
  exact hp
 ·obtain⟨t,ht⟩:=isSome_iff_exists.1 (hf r (hm r (hls▸hr)))
  obtain⟨hw,hre,-⟩:=hl.follow h (hm r (hls▸hr)) ht
  rwa[hw]

/-- An arena that can be saved is not changed by it, and a copy of it is loaded from what was
written. -/
theorem load_save (h:a.Loadable) {accepts:Bytes → Bytes → Bool}
 (hsave:(a.save accepts).outcome = .ok ()) :
 (a.save accepts).arena = a ∧
  ∃ b,load (a.save accepts).sink.taken = .ok b ∧ b.relocations=a.relocations ∧ b.Copies a := by
 obtain⟨harena,hfnd,htaken⟩:=save_ok h.bounded h.toTidy hsave
 obtain⟨b,hload,hpls,hcopies⟩:=load_stream h hfnd a.relocations.toList.length
  (show ByteArray.empty.size<8 by decide)
 rw[append_empty,List.take_length,←concat_filter a.image.contents,←htaken]at hload
 rw[List.take_length]at hpls
 exact⟨harena,b,hload,Array.ext' hpls,hcopies⟩
lemma linked_loadable:linked.Loadable:=
 ⟨linked_tidy,by decide +kernel,by decide +kernel⟩
lemma linked_saved:(linked.save fun _ _=>true).outcome=.ok ():=by decide +kernel
theorem load_save_linked : (linked.save fun _ _=>true).outcome=.ok ()∧∃ b,
 load (linked.save fun _ _=>true).sink.taken=.ok b∧b.relocations=linked.relocations∧
  b.Copies linked:=
 ⟨linked_saved,(load_save linked_loadable linked_saved).2⟩
def stray:Arena:=((create 1 64).put 1 (replicate 8 0)).addRelocation ⟨1,0⟩
theorem stray_not_loaded : (stray.bufferAt 1).data.size=8∧stray.follow? ⟨1,0⟩=some Ref.null∧
 (stray.save fun _ _=>true).outcome=.ok ()∧
 (load (stray.save fun _ _=>true).sink.taken).map Arena.count=.error (.code .corruptFile):=by
 decide +kernel

/-! ## Streams that end early -/
def placesAt (a:Arena):Nat:=6+12*a.count+(concat a.contents).size
lemma extract_of_le {b:Bytes}(h:b.size≤n):b.extract 0 n=b:=by
 rw[←@extract_zero_size b,extract_extract]
 congr 1
 omega
lemma extract_append_of_le {b c:Bytes}(h:b.size≤n):
 extract (b++c) 0 n=b++c.extract 0 (n-b.size):=by
 rw[extract_append,extract_of_le h,Nat.zero_sub]
lemma extract_listing (ps:List Ref)(n:Nat):∃behind:Bytes,behind.size<8∧
 (concat (listing ps)).extract 0 n=concat (listing (ps.take (n/8)))++behind:=by
 induction ps generalizing n with
 | nil=>
  refine⟨empty,by decide,?_⟩
  rw[List.take_nil]
  exact extract_of_le (Nat.zero_le n)
 | cons r _ ih=>
  by_cases hn:n<8
  ·refine⟨_,?_,by rw[Nat.div_eq_of_lt hn];exact ByteArray.empty_append.symm⟩
   rw[size_extract]
   omega
  obtain⟨behind,hs,hr⟩:=ih (n-8)
  refine⟨behind,hs,?_⟩
  have hdi:(digits r.toNat64 8).size=8:=size_digits ..
  rw[show n/8=(n-8)/8+1 by omega,List.take_succ_cons]
  simp only[listing,List.map_cons,concat_cons]at hr⊢
  rw[extract_append_of_le (by omega),hdi,hr,append_assoc]
lemma load_short_front (h:a.Loadable)
 (hsr:src=concat a.front++rs)(hsh:src.size<a.placesAt):
 ∃c≠.success,load src=.error (.code c):=by
 have hs:=sizes_contents a.sameLayout_image
 have ht:=le_table hsr hs h.image_seats
 have hf:6+12*a.count ≤ src.size:=by
  rw[hsr,size_append,size_front]
  omega
 rw[placesAt,←size_concat_congr hs]at hsh
 obtain⟨c,hne,hc⟩:=@loadBuffers_short (create a.count loadedInitial) _ src 0 _
  (by simpa only[zero_add]using ht) hf hsh
 rw[length_image]at hc
 exact⟨c,hne,by rw[load_front hsr h.count,hc];rfl⟩

/-- A stream that was cut is refused if some of the contents of the buffers are missing. If only entries of the list
of places are, it is loaded with a shorter list. -/
theorem load_cut (h:a.Loadable) {accepts:Bytes → Bytes → Bool}
 (hsave:(a.save accepts).outcome = .ok ()) (n:Nat) :
 (n < a.placesAt → ∃ c ≠ .success,load ((a.save accepts).sink.taken.extract 0 n) = .error (.code c)) ∧
  (a.placesAt ≤ n → ∃ b,load ((a.save accepts).sink.taken.extract 0 n) = .ok b ∧
   b.relocations.toList = a.relocations.toList.take ((n-a.placesAt) / 8) ∧ b.Copies a) := by
 obtain⟨-,hfnd,htaken⟩:=save_ok h.bounded h.toTidy hsave
 have hconts:=size_concat_congr (sizes_contents a.sameLayout_image)
 have hfront:=size_front a
 rw[htaken,concat_filter]
 refine⟨fun hn=>?_,fun hn=>?_⟩
 ·by_cases hsix:n<6
  ·refine⟨.invalidFile,by decide,?_⟩
   rw[load,if_pos]
   rw[decide_eq_true,Bool.true_or]
   rw[size_extract]
   omega
  by_cases htbl:n<6+12*a.count
  ·refine⟨.corruptFile,by decide,?_⟩
   rw[front,concat_cons,append_assoc,extract_append_of_le (by rw[size_header];omega),
    load_header rfl h.count,if_pos]
   rw[size_append,size_extract,size_header]
   omega
  ·rw[extract_append_of_le (by omega)]
   refine load_short_front h rfl ?_
   rw[size_append,size_extract]
   omega
 ·rw[placesAt]at hn
  rw[extract_append_of_le (by omega),extract_append_of_le (by omega)]
  obtain⟨behind,hbeh,hlist⟩:=extract_listing a.relocations.toList
   (n-(concat a.front).size-(concat a.image.contents).size)
  rw[hlist,hfront,hconts,show n-(6+12*a.count)-(concat a.contents).size=
   n-a.placesAt by rw[placesAt];omega]
  exact load_stream h hfnd _ hbeh
theorem load_cut_linked : (linked.save fun _ _=>true).outcome=.ok ()∧
 (∃ c≠.success,load ((linked.save fun _ _=>true).sink.taken.extract 0 48) =
  .error (.code c))∧
  ∃ b,load ((linked.save fun _ _=>true).sink.taken.extract 0 56)=.ok b∧
   b.relocations.toList=[]:=by
 obtain⟨b,hb,hpls,-⟩:=(load_cut linked_loadable linked_saved 56).2 (by decide +kernel)
 exact⟨linked_saved,(load_cut linked_loadable linked_saved 48).1 (by decide +kernel),b,hb,
  hpls.trans (by decide +kernel)⟩

/-- A stream without the last byte of its only entry is loaded, and the record has no address. -/
theorem cut_entry_loaded : (linked.save fun _ _=>true).sink.taken.size=57∧
 (load ((linked.save fun _ _=>true).sink.taken.extract 0 56)).map
  (fun b=>(b.relocations.size,b.follow? ⟨0,8⟩))=.ok (0,none):=by
 decide +kernel
end PatternScan.Arena
