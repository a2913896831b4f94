import PatternScan.Proofs.Arena.Loading
import PatternScan.Proofs.HashTable
import PatternScan.Proofs.Scan.Conclusion
import PatternScan.Proofs.Scan.Literals
/-! Statistics of ranges, which are sampled block by block, and of texts, which are made of signed characters. -/
namespace PatternScan
open ByteArray Int64 PatternScan.Arena PatternScan.Bytes
namespace Scan.Source
def layout (base:Nat):List Bytes→List SourceBlock
 | []=>[]
 | p::parts=>{base:=.ofNat base,data:=some p}::layout (base+p.size) parts
def seams:List Bytes→List Nat
 | []=>[]
 | p::parts=>p.size::(seams parts).map (p.size+·)
def covered (parts:List Bytes)(offset length:Nat):Bool:=
 offset<(concat parts).size&&(length≠0||offset∉seams parts)
lemma pieces_cons {base o n:Nat}{p:Bytes}(hb:base+p.size<2^64)(ho:o+n<2^64)
 (s:Bool)(rest:List SourceBlock):
 pieces o n s ({base:=.ofNat base,data:=some p}::rest)=
  if base≤o∧o<base+p.size then
   if o+n≤base+p.size then some [p.extract (o-base) (o-base+n)]
   else (pieces (base+p.size) (o+n-(base+p.size)) true rest).map (p.extract (o-base) (o-base+n)::·)
  else if s∨o+n≤base+p.size then none else pieces o n false rest:=by
 have hs:SourceBlock.stop {base:=.ofNat base,data:=some p}=.ofNat (base+p.size):=by
  rw[UInt64.ofNat_add]
  rfl
 have hw {m:Nat} (h:m<2^64):(UInt64.ofNat m).toNat=m:=UInt64.toNat_ofNat_of_lt' h
 have hf:=hw (show base<2^64 by omega)
 have hsize:SourceBlock.size {base:=.ofNat base,data:=some p}=p.size:=rfl
 have hc:=extract_extract (a:=p) (i:=0) (j:=p.size) (k:=o-base) (l:=o-base+n)
 rw[extract_zero_size,zero_add,zero_add]at hc
 rw[pieces]
 simp only[SourceBlock.holds,hs,UInt64.le_iff_toNat_le,UInt64.lt_iff_toNat_lt,hf,
  hw hb,hw ho,hw (show o<2^64 by omega),Bool.and_eq_true,decide_eq_true_eq,hsize,Option.getD_some,Bytes.slice]
 grind
def portions:List Bytes→Nat→Nat→List Bytes
 | [],_,_=>[]
 | p::parts,o,n=>
  if p.size≤o then portions parts (o-p.size) n
  else if o+n≤p.size then [p.extract o (o+n)]
  else p.extract o (o+n)::portions parts 0 (o+n-p.size)
lemma concat_portions (parts:List Bytes)(o n:Nat):concat (portions parts o n)=(concat parts).extract o (o+n):=by
 have he (p:Bytes) {i j:Nat} (h:min j p.size ≤ i):p.extract i j=ByteArray.empty:=
  ByteArray.extract_eq_empty_iff.2 h
 fun_induction portions parts o n with
 | case1 o n=>exact (he _ ((min_le_right _ _).trans (Nat.zero_le o))).symm
 | case2 p _ o n _ ih=>
  rw[ih,concat_cons,extract_append,he p (by omega),empty_append,show o-p.size+n=o+n-p.size by omega]
 | case3 p parts o n _ _=>
  rw[concat_cons,concat_cons,extract_append,he (concat parts) (by omega)]
  rfl
 | case4 p _ o n ho _ ih=>
  rw[concat_cons,concat_cons,extract_append,ih,zero_add,Nat.sub_eq_zero_of_le (Nat.le_of_not_le ho)]
lemma pieces_started (parts:List Bytes):∀b n,(∀p∈parts,p.size≠0)→b+(concat parts).size<2^64→b+n<2^64→
 pieces b n true (layout b parts)=some (portions parts 0 n):=by
 induction parts with
 | nil=>
  intro b n _ _ _
  rfl
 | cons p _ _=>
  intro b n hne hsize hn
  have hp:=hne p List.mem_cons_self
  rw[concat_cons,size_append]at hsize
  have hin:b≤b∧b<b+p.size:=by omega
  rw[layout,pieces_cons (by omega) hn,if_pos hin,portions,
   if_neg (Nat.not_le.2 (Nat.pos_of_ne_zero hp)),Nat.sub_self,Nat.zero_add]
  simp only[add_le_add_iff_left]
  grind
lemma covered_near {p:Bytes}(parts:List Bytes){i:Nat}(hi:i<p.size)(n:Nat):covered (p::parts) i n:=by
 have hs:i∉seams (p::parts):=by
  simp only[seams,List.mem_cons,List.mem_map]
  omega
 simp[covered,hs,concat_cons]
 omega
lemma covered_far (p:Bytes)(parts:List Bytes)(i n:Nat):
 covered (p::parts) (p.size+i) n=(covered parts i n&&(n≠0||i≠0)):=by
 simp[covered,seams,concat_cons]
 cases decide (n=0)<;>cases decide (i=0)<;>simp
lemma pieces_layout (parts:List Bytes):∀b i n,(∀p∈parts,p.size≠0)→
 b+(concat parts).size<2^64→b+i+n<2^64→
 pieces (b+i) n false (layout b parts)=
  if covered parts i n then some (portions parts i n) else none:=by
 induction parts with
 | nil=>
  intro b i n _ _ _
  rfl
 | cons p parts ih=>
  intro b i n hne hsize hn
  have hr:∀q∈parts,q.size≠0:=fun q hq=>hne q (List.mem_cons_of_mem _ hq)
  rw[concat_cons,size_append]at hsize
  rw[layout,pieces_cons (by omega) hn,portions,Nat.add_sub_cancel_left]
  by_cases hi:i<p.size
  ·have hin:b≤b+i∧b+i<b+p.size:=by omega
   rw[if_pos hin,covered_near parts hi,if_neg (not_le.2 hi)]
   simp only[add_assoc,add_le_add_iff_left]
   split
   ·rfl
   ·rw[Nat.add_sub_add_left,pieces_started parts _ _ hr (by omega) (by omega)]
    rfl
  obtain⟨i,rfl⟩:∃j,i=p.size+j:=⟨i-p.size,by omega⟩
  have hou:¬(b≤b+(p.size+i)∧b+(p.size+i)<b+p.size):=by omega
  rw[if_neg hou,covered_far,if_pos (Nat.le_add_right _ i),Nat.add_sub_cancel_left]
  split
  ·grind
  ·next he=>
   have hon:(n≠0||i≠0):=by
    simp only[Bool.or_eq_true,decide_eq_true_eq]
    omega
   rw[hon,Bool.and_true,←ih (b+p.size) i n hr (by omega) (by omega),add_assoc b]
section
variable {parts:List Bytes}(hparts:∀p∈parts,p.size≠0)(hsize:(concat parts).size<2^64){o n:Nat}(ho:o+n<2^63)
include hparts hsize ho
lemma range_portions:range (.ofNat o) (.ofNat n) (layout 0 parts)=
 if covered parts o n then some (portions parts o n) else none:=by
 have hof:(Int64.ofNat o).toInt=o:=toInt_ofNat_of_lt (by omega)
 have hl:(Int64.ofNat n).toInt=n:=toInt_ofNat_of_lt (by omega)
 have hla:=pieces_layout parts 0 o n hparts (by omega) (by omega)
 rw[zero_add]at hla
 rw[←hla,range,hof,hl]
 cases parts with
 | nil=>rfl
 | cons p _=>
  rw[if_pos]
  ·rfl
  ·simp[layout,allows,lt_iff_toInt_lt,hof,hl]
lemma range_layout:(range (.ofNat o) (.ofNat n) (layout 0 parts)).map concat=
 if covered parts o n then some ((concat parts).extract o (o+n)) else none:=by
 rw[range_portions hparts hsize ho,←concat_portions]
 split<;>rfl
end
end Scan.Source
/-! ## Digests -/
namespace Module.Hash
open Scan (SourceBlock)
open Scan.Source (range allows)
lemma cacheKey_inj {o n o' n':Int64}(h:cacheKey o n=cacheKey o' n'):o=o'∧n=n':=by
 have hl (o n:Int64):(cacheKey o n).le 0 8=o.toUInt64.toNat:=by
  rw[le_eq_mod fun k hk=>?_]
  ·exact Nat.mod_eq_of_lt o.toUInt64.toNat_lt
  ·rw[cacheKey,byteAt_pushLe (by omega),if_pos (by rw[size_pushLe];omega),byteAt_pushLe (by omega),
    if_neg (by simp),size_empty,zero_add,Nat.sub_zero]
 have hh (o n:Int64):(cacheKey o n).le 8 8=n.toUInt64.toNat:=by
  rw[le_eq_mod fun k hk=>?_]
  ·exact Nat.mod_eq_of_lt n.toUInt64.toNat_lt
  ·rw[cacheKey,byteAt_pushLe (by rw[size_pushLe];omega),size_pushLe,
    size_empty,if_neg (by omega),Nat.add_sub_cancel_left]
 have hw {a b:Int64}(h:a.toUInt64.toNat=b.toUInt64.toNat):a=b:=
  congrArg Int64.ofUInt64 (UInt64.toNat_inj.1 h)
 exact⟨hw (by rw[←hl o n,←hl o' n',h]),hw (by rw[←hh o n,←hh o' n',h])⟩
lemma cacheSpace?_inj {kind kind':DigestKind}{s:Bytes}(h:cacheSpace? kind=some s)
 (h':cacheSpace? kind'=some s):kind=kind':=by
 have ht {a b:String} (h:some (Bytes.ofText a)=some (Bytes.ofText b)):a=b:=
  String.toByteArray_inj.1 (Option.some.inj h)
 have hb:=h.trans h'.symm
 cases kind<;>cases kind'<;>simp only[cacheSpace?,reduceCtorEq]at h h' hb⊢ <;>
  exact absurd (ht hb) (by decide)

/-- What a cache holds is the digest of its range in the blocks. -/
structure Truthful (blocks:List SourceBlock)(known:Cache):Prop where
 size:0<known.buckets.size
 holds:∀{kind o n space result},cacheSpace? kind=some space→
  known.lookup? (cacheKey o n) (some space)=some result→
  ((range o n blocks).map concat).map (digest kind)=some result
lemma truthful_fresh (blocks:List SourceBlock):Truthful blocks .fresh where
 size:=by decide
 holds _ h:=by
  rw[Cache.fresh,HashTable.lookup?_empty]at h
  cases h
lemma Truthful.add {blocks:List SourceBlock}{k:Cache}(h:Truthful blocks k)
 {kind:DigestKind}{o n:Int64}{space:Bytes}{result:Object}(hs:cacheSpace? kind=some space)
 (hr:((range o n blocks).map concat).map (digest kind)=some result):
 Truthful blocks (k.add (cacheKey o n) (some space) result) where
 size:=h.size.trans_eq Array.size_modify.symm
 holds {kind' o' n' space' result'} hs' hl:=by
  rw[HashTable.lookup?_add h.size]at hl
  split at hl
  ·next hsa=>
   obtain⟨hk,hsa⟩:=hsa
   obtain⟨rfl,rfl⟩:=cacheKey_inj hk
   cases hsa
   cases hl
   rwa[cacheSpace?_inj hs' hs]
  ·exact h.holds hs' hl
lemma ofRange_spec {blocks:List SourceBlock}{kn:Cache}(h:Truthful blocks kn)(k:DigestKind)(o n:Int64):
 (ofRange k o n blocks kn).1=((range o n blocks).map concat).elim (missing k) (digest k)∧
 Truthful blocks (ofRange k o n blocks kn).2:=by
 unfold ofRange
 dsimp only
 split
 ·next result hc=>
  obtain⟨-,hc⟩:=Option.ite_none_right_eq_some.1 hc
  obtain⟨space,hs,hl⟩:=Option.bind_eq_some_iff.1 hc
  obtain⟨b,hb,rfl⟩:=Option.map_eq_some_iff.1 (h.holds hs hl)
  rw[hb]
  exact⟨rfl,h⟩
 split
 ·next hr=>
  rw[hr]
  exact⟨rfl,h⟩
 next ps hr=>
 rw[hr]
 refine⟨rfl,?_⟩
 cases hs:cacheSpace? k with
 | none=>exact h
 | some _=>exact h.add hs (by rw[hr];rfl)
end Module.Hash
/-! ## Counts -/
namespace Module.Math
def tally (l:List UInt8):Array Nat:=Array.ofFn fun i:Fin 256=>l.count (.ofNat i)%2^32
lemma tally_concat (l:List UInt8)(c:UInt8):tally (l++[c])=bump (tally l) c:=by
 apply Array.ext
 ·simp[tally,bump]
 intro i hi _
 have hi:i<256:=by simpa[tally]using hi
 have hc:c=.ofNat i↔c.toNat=i:=by rw[←UInt8.toNat_inj,UInt8.toNat_ofNat_of_lt' hi]
 simp only[tally,bump,Array.getElem_modify,Array.getElem_ofFn,List.count_append,
  List.count_singleton,beq_iff_eq,hc]
 split<;>omega
lemma foldl_pieces {β:Type}(f:β→UInt8→β)(pc:List Bytes)(r:β):
 pc.foldl (fun r b=>b.foldl f r) r=(concat pc).list.foldl f r:=by
 induction pc generalizing r with
 | nil=>rfl
 | cons p _ ih=>
  rw[List.foldl_cons,ih,foldl_eq,concat_cons]
  simp[Bytes.list]
lemma distribution_eq (pc:List Bytes):distribution pc=tally (concat pc).list:=by
 rw[distribution,foldl_pieces]
 generalize (concat pc).list=l
 induction l using List.reverseRecOn with
 | nil=>apply Array.ext<;>simp[tally]
 | append_singleton l c ih=>rw[List.foldl_concat,ih,tally_concat]
lemma countInRange_eq {c:Call}{b:UInt8}(hb:c.integer 1=.ofNat b.toNat):
 call .countInRange c=((c.range 2).map concat).elim .noInteger fun bytes =>
  .ofNat (bytes.list.count b%2^32):=by
 have hlt:=b.toNat_lt
 have hw:(c.integer 1).toInt=b.toNat:=by rw[hb,toInt_ofNat_of_lt (by omega)]
 have hby:(c.integer 1<0||255<c.integer 1)=false:=by
  simp only[lt_iff_toInt_lt,hw,Bool.or_eq_false_iff,decide_eq_false_iff_not,not_lt]
  exact⟨Int.natCast_nonneg _,by change (b.toNat:Int)≤255;omega⟩
 simp only[call,hby,hw]
 cases c.range 2 with
 | none=>rfl
 | some _=>simp[distribution_eq,tally,hlt]
lemma modeOfRange_eq (c:Call):call .modeOfRange c=
 ((c.range 1).map concat).elim .noInteger fun b=>.ofNat (mode (tally b.list)):=by
 simp only[call]
 cases c.range 1 with
 | none=>rfl
 | some _=>simp[distribution_eq]
end Module.Math
/-! ## Histories -/
namespace Scan
open Condition (Cell World)
open Source (layout covered)
inductive Request where
 | load (name:String)
 | call (f:Builtin)(arguments:List Cell)
 | read (kind:Rule.NumberReader)(offset:Int64)
def Request.pass {S:Type}(world:World S)(w:S):Request→S
 | load name=>(world.load name w).2
 | call f arguments=>(world.call f arguments w).2
 | read kind offset=>(world.read kind offset w).2
lemma pass_keeps {S:Type}{wr:World S}{P:S→Prop}(h:wr.Keeps P)
 (r:List Request):∀w,P w→P (r.foldl (Request.pass wr) w):=by
 induction r with
 | nil=>exact fun _ hw=>hw
 | cons request r ih=>
  refine fun w hw=>ih _ ?_
  cases request with
  | load nm=>exact h.load nm w hw
  | call f arguments=>exact h.call f arguments w hw
  | read kind of=>exact h.read kind of w hw
variable {listener:Listener}{memory:Bool}{regexCode:Regex.Code}{blocks:List SourceBlock}
structure Serves (blocks:List SourceBlock)(source:Source)(w:ScanState):Prop where
 source:w.source=source
 digests:Module.Hash.Truthful blocks w.details.digests
lemma load_truthful (nm:String)(i:Module.Input){d:Module.Details}(h:Module.Hash.Truthful blocks d.digests):
 Module.Hash.Truthful blocks (Module.load nm i d).2.digests:=by
 unfold Module.load
 split<;>first | exact Module.Hash.truthful_fresh blocks | exact h
lemma call_truthful (f:Builtin){c:Module.Call}{d:Module.Details}(h:Module.Hash.Truthful c.blocks d.digests):
 Module.Hash.Truthful c.blocks (Module.call f d c).2.digests:=by
 cases f with
 | hash f=>
  cases f with
  | ofText _=>exact h
  | ofRange kind=>exact (Module.Hash.ofRange_spec h kind _ _).2
 | _=>exact h
variable (listener memory regexCode) in
lemma serves_keeps {s:Source}(hv:s.visit=(blocks,s)):
 (ScanState.world listener memory regexCode).Keeps (Serves blocks s) where
 load name w hw:=by
  obtain⟨rfl,hdi⟩:=hw
  refine⟨ScanState.load_source name w hv,?_⟩
  change Module.Hash.Truthful blocks (ScanState.load listener memory name w).2.details.digests
  unfold ScanState.load
  split
  ·exact hdi
  split
  ·exact hdi
  ·split
   ·exact hdi
   ·exact load_truthful name _ hdi
 call f arguments w hw:=by
  obtain⟨rfl,hdi⟩:=hw
  simp only[ScanState.world,ScanState.call,hv]
  exact⟨rfl,call_truthful f (c:=⟨arguments,blocks,regexCode⟩) hdi⟩
 read kind offset w hw:=by
  obtain⟨rfl,hdi⟩:=hw
  simp only[ScanState.world,ScanState.read,hv]
  exact⟨rfl,hdi⟩

/-- Whatever was asked before, the digests and counts of a range of blocks are those of its bytes. They are undefined
if it starts behind the data, or is empty and starts where a block ends. -/
theorem range_values (parts:List Bytes) (hparts:∀p∈parts,p.size≠0)
 (hsize:(concat parts).size<2^64) {w:ScanState}
 (hsource:w.source.visit=(layout 0 parts,w.source)) (hfresh:w.details.digests=.fresh)
 (requests:List Request) {o n:Nat} (hrange:o+n<2^63) :
 let call (f:Builtin) (arguments:List Cell) := (ScanState.call regexCode f arguments
  (requests.foldl (Request.pass (ScanState.world listener memory regexCode)) w)).1
 let range : List Cell := [.integer (.ofNat o),.integer (.ofNat n)]
 let bytes : Bytes := (concat parts).extract o (o+n)
 (∀kind,call (.hash (.ofRange kind)) range =
  if covered parts o n then call (.hash (.ofText kind)) [.text bytes]
  else .ok (Module.Hash.missing kind)) ∧
 (∀c:UInt8,call (.math .countInRange) (.integer (.ofNat c.toNat)::range) = .ok
  (if covered parts o n then .ofNat (bytes.list.count c%2^32) else .noInteger)) ∧
 (call (.math .modeOfRange) range = .ok
  (if covered parts o n then .ofNat (Module.Math.mode (Module.Math.tally bytes.list))
   else .noInteger)) ∧
 ∀data:Bytes,covered [data] o n=decide (o<data.size) := by
 intro call range bytes
 have hserves:=pass_keeps (serves_keeps listener memory regexCode hsource) requests w
  ⟨rfl,hfresh▸Module.Hash.truthful_fresh _⟩
 obtain⟨hkept,hdigs⟩:=hserves
 have hbytes:=Source.range_layout hparts hsize hrange
 refine⟨fun kind=>?_,fun c=>?_,?_,fun data=>?_⟩
 ·simp only[call,ScanState.call,hkept,hsource]
  change Except.ok (Module.Hash.ofRange kind (.ofNat o) (.ofNat n) (layout 0 parts) _).1=_
  rw[(Module.Hash.ofRange_spec hdigs kind _ _).1,hbytes]
  split<;>rfl
 ·simp only[call,ScanState.call,hkept,hsource,Module.call]
  rw[Module.Math.countInRange_eq rfl]
  change Except.ok (Option.elim ((Source.range (.ofNat o) (.ofNat n) (layout 0 parts)).map concat) _ _)=_
  rw[hbytes]
  split<;>rfl
 ·simp only[call,ScanState.call,hkept,hsource,Module.call,Module.Math.modeOfRange_eq]
  change Except.ok (Option.elim ((Source.range (.ofNat o) (.ofNat n) (layout 0 parts)).map concat) _ _)=_
  rw[hbytes]
  split<;>rfl
 ·by_cases ho:o<data.size
  ·rw[Source.covered_near [] ho,decide_eq_true ho]
  ·simp[covered,concat,ho]
def ScanState.over (parts:List Bytes):ScanState where
 objects:=[]
 source:={blocks:=(layout 0 parts).toArray,position:=parts.length}
 events:=#[]
def halves:List Bytes:=[⟨#[97,98]⟩,⟨#[99,100]⟩]
theorem range_values_again :
 let range : List Cell := [.integer 1,.integer 3]
 let w:=[.load "hash",.call (.hash (.ofRange .md5)) range].foldl
  (Request.pass (ScanState.world default false .empty)) (.over halves)
 (ScanState.call .empty (.hash (.ofRange .md5)) range w).1 =
  (ScanState.call .empty (.hash (.ofText .md5)) [.text ⟨#[98,99,100]⟩] w).1 :=
 ((range_values halves (w:=.over halves) (by decide) (by decide) rfl rfl _
  (o:=1) (n:=3) (by decide)).1 .md5).trans (if_pos (by decide))

/-- An empty range has a digest in data that are not cut, and none where two blocks meet. -/
theorem empty_range_between_blocks :
 let undefined? (parts:List Bytes) (f:Builtin) (arguments:List Cell):=(ScanState.call .empty f
  (arguments++[.integer 2,.integer 0]) (.over parts)).1.toOption.map (·.isUndefined)
 (undefined? [concat halves] (.hash (.ofRange .md5)) []=some false∧
  undefined? halves (.hash (.ofRange .md5)) []=some true)∧
 undefined? [concat halves] (.math .countInRange) [.integer 97]=some false∧
 undefined? halves (.math .countInRange) [.integer 97]=some true:=by
 decide +kernel
end Scan
end PatternScan
namespace PatternScan.Module.Math
open ByteArray
open Bytes (concat)
open Scan.Source (layout seams covered portions range)
variable {n:Nat}{parts:List Bytes}
/-! ## Points -/
def samples:List Nat→List (Nat×Nat)
 | a::b::c::d::e::f::rest=>(coordinate a b c,coordinate d e f)::samples rest
 | _=>[]
lemma length_samples (l:List Nat):(samples l).length=l.length/6:=by
 fun_induction samples l with
 | case1 a b c d e f _ _=>
  simp only[List.length_cons]
  omega
 | case2 l hl=>
  match l with
  | [] | [_] | [_,_] | [_,_,_] | [_,_,_,_] | [_,_,_,_,_]=>simp
  | a::b::c::d::e::f::rest=>exact (hl _ _ _ _ _ _ _ rfl).elim
lemma samples_append {l:List Nat}(h:6 ∣ l.length)(m:List Nat):samples (l++m)=samples l++samples m:=by
 fun_induction samples l with
 | case1 a b c d e f _ ih=>
  simp only[List.cons_append,samples]
  rw[ih ((Nat.dvd_add_left (dvd_refl 6)).1 h)]
 | case2 l hl=>
  match l with
  | []=>rfl
  | [_] | [_,_] | [_,_,_] | [_,_,_,_] | [_,_,_,_,_]=>simp at h
  | a::b::c::d::e::f::rest=>exact (hl _ _ _ _ _ _ _ rfl).elim
def Points.ofSamples (q:List (Nat×Nat)):Points:=
 {drawn:=q.length,inside:=q.countP fun (x,y)=>inCircle x y}
lemma points_foldl (l:List Nat)(q:List (Nat×Nat)):
 ∃group,l.foldl Points.add (.ofSamples q)={Points.ofSamples (q++samples l) with group}:=by
 fun_induction samples l generalizing q with
 | case1 a b c d e f _ ih=>
  obtain⟨group,h⟩:=ih (q++[(coordinate a b c,coordinate d e f)])
  refine⟨group,?_⟩
  rw[List.append_assoc]at h
  rw[List.singleton_append]at h
  rw[←h]
  simp only[List.foldl_cons,Points.add,Points.ofSamples,List.length_append,List.countP_append]
  simp only[List.countP_singleton]
  split<;>rfl
 | case2 l hl=>
  rw[List.append_nil]
  match l with
  | [] | [_] | [_,_] | [_,_,_] | [_,_,_,_] | [_,_,_,_,_]=>exact⟨_,rfl⟩
  | a::b::c::d::e::f::rest=>exact (hl _ _ _ _ _ _ _ rfl).elim
lemma points_addBytes (r:UInt8→Nat)(p:Points)(b:Bytes):
 p.addBytes r b=(b.list.map r).foldl Points.add {p with group:=[]}:=by
 rw[Points.addBytes,Bytes.foldl_eq,←List.foldl_map]
lemma points_pieces (r:UInt8→Nat)(ps:List Bytes):∃group,ps.foldl (Points.addBytes r) {}=
  {Points.ofSamples (ps.flatMap fun p=>samples (p.list.map r)) with group}:=by
 induction ps using List.reverseRecOn with
 | nil=>exact⟨_,rfl⟩
 | append_singleton _ p ih=>
  obtain⟨group,ih⟩:=ih
  rw[List.foldl_concat,ih,List.flatMap_append,List.flatMap_singleton,points_addBytes]
  exact points_foldl _ _
lemma error_pieces (r:UInt8→Nat)(ps:List Bytes):(ps.foldl (Points.addBytes r) {}).error=
  (Points.ofSamples (ps.flatMap fun p=>samples (p.list.map r))).error:=by
 obtain⟨group,h⟩:=points_pieces r ps
 rw[h]
 rfl

/-! ## Products of neighbours -/
section
variable {α:Type}[Add α][Mul α][OfNat α 0]
omit [OfNat α 0] in
lemma addBytes_eq (r:UInt8→α)(s:Sums α)(b:Bytes):s.addBytes r b=(b.list.map r).foldl Sums.add s:=by
 rw[Sums.addBytes,Bytes.foldl_eq,←List.foldl_map]
omit [OfNat α 0] in
lemma sums_pieces (r:UInt8→α)(ps:List Bytes)(s:Sums α):
 ps.foldl (Sums.addBytes r) s=s.addBytes r (concat ps):=by
 rw[addBytes_eq,List.foldl_map]
 exact foldl_pieces _ ps s
omit [Add α] [Mul α] in
lemma firstOf_eq (r:UInt8→α)(b:Bytes):firstOf r 0 b=(b.list.map r).headD 0:=by
 by_cases hb:0<b.size
 ·rw[firstOf,if_neg (by simpa[ByteArray.isEmpty,Nat.pos_iff_ne_zero]using hb),
   ←List.drop_zero (l:=b.list),b.drop_list hb]
  rfl
 ·have hl:b.list=[]:=List.eq_nil_of_length_eq_zero (by rw[b.length_list];omega)
  rw[firstOf,if_pos (by simpa[ByteArray.isEmpty]using hb),hl]
  rfl
omit [Add α] [Mul α] in
lemma first_pieces (r:UInt8→α){ps:List Bytes}(hps:∀q∈ps.tail,q.size≠0):
 ps.foldl (firstOf r) 0=firstOf r 0 (ps.getLastD .empty):=by
 rcases ps with _|⟨p,ps⟩
 ·rfl
 cases ps using List.reverseRecOn with
 | nil=>rfl
 | append_singleton _ q=>
  have hq:q.isEmpty=false:=by simpa[ByteArray.isEmpty]using hps q (by simp)
  rw[List.getLastD_cons,←List.cons_append,List.foldl_concat,List.getLastD_concat,firstOf,firstOf,hq]
  rfl
end
lemma sums_foldl (l:List ℤ)(s:Sums ℤ)(f:ℤ):
 (l.foldl Sums.add s).cycle f=s.products+((s.last::l).zipWith (·*·) (l++[f])).sum∧
 (l.foldl Sums.add s).values=s.values+l.sum∧
 (l.foldl Sums.add s).squares=s.squares+(l.map (·^2)).sum:=by
 induction l generalizing s with
 | nil=>simp[Sums.cycle]
 | cons x l ih=>
  obtain⟨hc,hv,hs⟩:=ih (s.add x)
  refine⟨hc.trans ?_,hv.trans ?_,hs.trans ?_⟩
  ·simp[Sums.add,add_assoc]
  ·simp[Sums.add,add_assoc]
  ·simp[Sums.add,add_assoc,pow_two]
lemma cycle_eq (r:UInt8→ℤ)(b:Bytes):
 let l:=b.list.map r
 let s:=Sums.none.addBytes r b
 s.cycle (firstOf r 0 b)=(l.zipWith (·*·) (l.rotate 1)).sum∧
 s.values=l.sum∧s.squares=(l.map (·^2)).sum:=by
 intro l s
 obtain⟨hc,hv,hsq⟩:=sums_foldl l .none (l.headD 0)
 have hs:s=l.foldl Sums.add .none:=addBytes_eq r _ b
 rw[hs,firstOf_eq,hc,hv,hsq]
 refine⟨?_,zero_add _,zero_add _⟩
 cases l with
 | nil=>rfl
 | cons x l=>simp[Sums.none]

/-! ## Ranges -/
lemma size_ne_of_mem_portions (parts:List Bytes)(o:Nat)(hn:n≠0):∀q∈portions parts o n,q.size≠0:=by
 fun_induction portions parts o n with
 | case1=>nofun
 | case2 p _ o n _ ih=>exact ih hn
 | case3 p _ o n _ _=>
  rw[List.forall_mem_singleton,size_extract]
  omega
 | case4 p _ o n _ _ ih=>
  rw[List.forall_mem_cons,size_extract]
  exact⟨by omega,ih (by omega)⟩
lemma size_ne_of_mem_tail (parts:List Bytes)(o n:Nat):∀q∈(portions parts o n).tail,q.size≠0:=by
 fun_induction portions parts o n with
 | case1=>nofun
 | case2 p _ o n _ ih=>exact ih
 | case3=>nofun
 | case4 p parts o n _ _=>exact size_ne_of_mem_portions parts 0 (by omega)
lemma mem_seams_cons {p:Bytes}{s:Nat}:s∈seams (p::parts)↔s=p.size∨∃t∈seams parts,p.size+t=s:=by
 rw[seams,List.mem_cons,List.mem_map]
lemma portions_single {o:Nat}(ho:o<(concat parts).size)
 (hse:∀s∈seams parts,o<s → o+n ≤ s):portions parts o n=[(concat parts).extract o (o+n)]:=by
 rw[←Scan.Source.concat_portions]
 fun_induction portions parts o n with
 | case1 o n=>cases ho
 | case2 p _ o n _ ih=>
  rw[Arena.concat_cons,size_append]at ho
  refine ih (by omega) fun s hs hlo=>?_
  have:=hse (p.size+s) (mem_seams_cons.2 (.inr ⟨s,hs,rfl⟩)) (by omega)
  omega
 | case3=>simp[concat]
 | case4 p _ o n _ he=>exact absurd (hse p.size (mem_seams_cons.2 (.inl rfl)) (by omega)) he

/-- Blocks that end between two groups do not change what is drawn. -/
lemma samples_portions {o:Nat}(hin:o+n≤(concat parts).size)(hse:∀s∈seams parts,o<s→s<o+n→6 ∣ s-o):
 (portions parts o n).flatMap (fun p=>samples (p.list.map UInt8.toNat))=
  samples ((Bytes.list ((concat parts).extract o (o+n))).map UInt8.toNat):=by
 rw[←Scan.Source.concat_portions]
 fun_induction portions parts o n with
 | case1=>rfl
 | case2 p _ o n _ ih=>
  rw[Arena.concat_cons,size_append]at hin
  refine ih (by omega) fun s hs hlo hhi=>?_
  have:=hse (p.size+s) (mem_seams_cons.2 (.inr ⟨s,hs,rfl⟩)) (by omega) (by omega)
  rwa[show p.size+s-o=s-(o-p.size) by omega]at this
 | case3=>simp[concat]
 | case4 p parts o n _ he ih=>
  rw[Arena.concat_cons,size_append]at hin
  have hp:=hse p.size (mem_seams_cons.2 (.inl rfl)) (by omega) (by omega)
  have hr (s:Nat) (hs:s∈seams parts) (hlo:0<s) (hhi:s<0+(o+n-p.size)):6 ∣ s-0:=by
   have:=hse (p.size+s) (mem_seams_cons.2 (.inr ⟨s,hs,rfl⟩)) (by omega) (by omega)
   omega
  rw[List.flatMap_cons,ih (by omega) hr,←samples_append,Arena.concat_cons]
  ·simp[Bytes.list]
  ·rw[List.length_map,Bytes.length_list,size_extract]
   rwa[Nat.min_eq_right (Nat.le_of_not_le he)]

/-- A range in blocks is sampled piece by piece, and its last byte is paired with the first one of its last piece.
Unless a block ends within a group of six bytes, or within the range, these are the samples of the range. -/
theorem range_sampled (parts:List Bytes) (hparts:∀p∈parts,p.size≠0)
 (hsize:(concat parts).size<2^63) {o n:Nat} (hin:o+n ≤ (concat parts).size)
 (hcovered:covered parts o n=true) (code:Regex.Code) :
 let c : Call := ⟨[.integer (.ofNat o),.integer (.ofNat n)],layout 0 parts,code⟩
 let bytes : Bytes := (concat parts).extract o (o+n)
 let drawn:=(portions parts o n).flatMap fun p=>samples (p.list.map UInt8.toNat)
 let last : Bytes := (portions parts o n).getLastD .empty
 let value (c:UInt8) : ℤ := c.toNat
 let sums:=Sums.none.addBytes value bytes
 let l:=bytes.list.map value
 call .piOfRange c=(if drawn=[] then .noFloat else .float (Points.ofSamples drawn).error) ∧
 ((∀s∈seams parts,o < s → s<o+n → 6 ∣ s-o) →
  drawn=samples (bytes.list.map UInt8.toNat) ∧ drawn.length=n/6 ∧ (n<6 ↔ drawn=[])) ∧
 call .correlationOfRange c =
  .float (correlation (Sums.none.addBytes unsigned bytes) (firstOf unsigned 0 last) n) ∧
 ((∀s∈seams parts,o < s → o+n ≤ s) → last=bytes) ∧
 sums.cycle (firstOf value 0 bytes)=(l.zipWith (·*·) (l.rotate 1)).sum ∧
 sums.values=l.sum ∧ sums.squares=(l.map (·^2)).sum := by
 intro c bytes drawn last value sums l
 have hrange:c.range 1=some (portions parts o n):=by
  have h:=Scan.Source.range_portions hparts (by omega) (show o+n<2^63 by omega)
  rwa[if_pos hcovered]at h
 have ho:o<(concat parts).size:=of_decide_eq_true (Bool.and_eq_true _ _ |>.mp hcovered).1
 have hbytes:bytes.size=n:=by
  rw[size_extract]
  omega
 refine⟨?_,fun hseams=>?_,?_,fun hseams=>?_,cycle_eq value bytes⟩
 ·simp only[call,hrange,Option.elim,error_pieces]
  split
  ·next hnone=>
   simp only[drawn]at hnone
   rw[hnone]
   rfl
  ·rfl
 ·have hdrawn:drawn=samples (bytes.list.map UInt8.toNat):=samples_portions hin hseams
  have hlength:drawn.length=n/6:=by
   rw[hdrawn,length_samples,List.length_map,Bytes.length_list,hbytes]
  refine⟨hdrawn,hlength,?_⟩
  rw[←List.length_eq_zero_iff,hlength]
  omega
 ·simp only[call,hrange,Option.elim,sums_pieces,Scan.Source.concat_portions]
  rw[hbytes,first_pieces unsigned (size_ne_of_mem_tail parts o n)]
 ·simp only[last,portions_single ho hseams]
  rfl
theorem range_sampled_blocks :
 ((portions [⟨#[1,2,3,4,5,6]⟩,⟨#[7,8,9,10,11,12,13]⟩] 0 13).flatMap fun p =>
  samples (p.list.map UInt8.toNat)).length=2:=
 ((range_sampled _ (by decide) (by decide) (by decide) (by decide +kernel) .empty).2.1
  (by decide +kernel)).2.1

/-- The sum of products of `abcd` in two blocks takes the third letter for the first one, and of six bytes in
two blocks no point is drawn. -/
theorem sampling_restarts :
 let six (parts:List Bytes):=call .piOfRange ⟨[.integer 0,.integer 6],layout 0 parts,.empty⟩
 let four (parts:List Bytes):=call .correlationOfRange ⟨[.integer 0,.integer 4],layout 0 parts,.empty⟩
 let negative : Object → Bool
  | .float x=>x<0
  | _=>false
 (six [⟨#[1,2,3,4,5,6]⟩]).isUndefined=false∧(six [⟨#[1,2,3]⟩,⟨#[4,5,6]⟩]).isUndefined=true∧
 negative (four [concat Scan.halves])=true∧negative (four Scan.halves)=false:=by
 decide +kernel

/-! ## Texts -/
lemma sum_eq (r:UInt8→ℤ)(b:Bytes):sum r b=(b.list.map r).sum:=by
 rw[sum,Bytes.foldl_eq,List.sum_eq_foldl,List.foldl_map]
lemma weighted_ofFn (f:ℤ→ℤ)(g:Fin n→Nat):weighted Nat.cast f (Array.ofFn g)=∑ i:Fin n,f (i:Nat)*g i:=by
 have hf (counts:List Nat) (s:ℤ) (i:Nat): (counts.foldl (fun (sum,i) k=>(sum+f (Nat.cast i)*k,i+1)) (s,i)).1=
   s+((counts.zipIdx i).map fun (k,i)=>f i*k).sum:=by
  induction counts generalizing s i with
  | nil=>simp
  | cons k _ ih=>rw[List.foldl_cons,ih,List.zipIdx_cons,List.map_cons,List.sum_cons,add_assoc]
 have hz:(List.ofFn g).zipIdx.map (fun (k,i)=>f i*k)=List.ofFn fun i:Fin n=>f (i:Nat)*g i:=by
  refine List.ext_getElem (by simp) fun i hi _=>?_
  simp
 rw[weighted,←Array.foldl_toList,hf,zero_add,Array.toList_ofFn,hz,List.sum_ofFn]
lemma total_ofFn (g:Fin n→Nat):total (Array.ofFn g)=∑ i,g i:=by
 rw[total,←Array.foldl_toList,←List.sum_eq_foldl,Array.toList_ofFn,List.sum_ofFn]
lemma sum_count {R:Type}[CommSemiring R](f:UInt8→R)(l:List UInt8):
 (∑ i:Fin 256,f (.ofNat i)*l.count (.ofNat i))=(l.map f).sum:=by
 induction l with
 | nil=>simp
 | cons c l ih=>
  have hon:(∑ i:Fin 256,f (.ofNat i)*(if c=.ofNat i then 1 else 0:R))=f c:=by
   rw[Finset.sum_eq_single ⟨c.toNat,c.toNat_lt⟩ (fun i _ hi=>?_) (by simp)]
   ·simp
   ·rw[if_neg,mul_zero]
    rintro rfl
    exact hi (Fin.ext (UInt8.toNat_ofNat_of_lt' i.2).symm)
  rw[List.map_cons,List.sum_cons,←ih,←hon,←Finset.sum_add_distrib]
  refine Finset.sum_congr rfl fun i _=>?_
  simp only[List.count_cons,beq_iff_eq,Nat.cast_add,Nat.cast_ite,mul_add]
  simp only[Nat.cast_one,Nat.cast_zero]
  exact add_comm _ _
lemma weighted_tally (f:ℤ→ℤ){l:List UInt8}(hl:l.length<2^32):
 weighted Nat.cast f (tally l)=(l.map fun c=>f c.toNat).sum∧total (tally l)=l.length:=by
 have hc (c:UInt8):l.count c%2^32=l.count c:=Nat.mod_eq_of_lt (List.count_le_length.trans_lt hl)
 have hon:=sum_count (fun _=>1) l
 simp only[one_mul,Nat.cast_id,List.map_const',List.sum_replicate,smul_eq_mul,mul_one]at hon
 refine⟨?_,?_⟩
 ·rw[tally,weighted_ofFn,←sum_count]
  refine Finset.sum_congr rfl fun i _=>?_
  rw[hc,UInt8.toNat_ofNat_of_lt' i.2]
 ·rw[tally,total_ofFn,←hon]
  simp only[hc]
lemma toInt_toInt8:∀c:UInt8,(c.toNat:ℤ)=c.toInt8.toInt+256*if 128≤c then 1 else 0:=by decide +kernel
lemma sum_toNat (l:List UInt8):(l.map fun c=>(c.toNat:ℤ)).sum=
 (l.map fun c=>c.toInt8.toInt).sum+256*l.countP (128≤·):=by
 induction l with
 | nil=>rfl
 | cons c l ih=>
  rw[List.map_cons,List.sum_cons,ih,toInt_toInt8,List.map_cons,List.sum_cons,List.countP_cons]
  simp only[decide_eq_true_eq]
  split<;>push_cast<;>ring
lemma widened_eq:∀c:UInt8,c<128→widened c=c.toNat:=by decide +kernel

/-- The overloads for texts and for ranges.  A text is read as signed characters, so that the totals are the
same if its bytes are below 128. -/
theorem overloads_agree {s:Bytes} (hs:s.size<2^32) {blocks:List Scan.SourceBlock} {o n:Int64}
 {ps:List Bytes} (hrange:range o n blocks=some ps) (hps:concat ps=s) (code:Regex.Code) :
 let ofText (f:MathFunction):=call f ⟨[.text s],blocks,code⟩
 let ofRange (f:MathFunction):=call f ⟨[.integer o,.integer n],blocks,code⟩
 let value (c:UInt8) : ℤ := c.toNat
 let character (c:UInt8) : ℤ := c.toInt8.toInt
 (ofText .meanOfText=.float (sum signed s/Float.ofNat s.size) ∧
  ofRange .meanOfRange =
   .float (weighted Float.ofNat id (distribution ps)/Float.ofNat s.size) ∧
  weighted Nat.cast id (distribution ps)=sum character s+256*s.list.countP (128 ≤ ·)) ∧
 ((∀c∈s.list,c<128) → ps=[s] →
  ofText .correlationOfText=ofRange .correlationOfRange ∧ ofText .piOfText=ofRange .piOfRange ∧
  Sums.none.addBytes character s=ps.foldl (Sums.addBytes value) .none ∧
  firstOf character 0 s=ps.foldl (firstOf value) 0) := by
 intro ofText ofRange value character
 have hrange:(Call.range ⟨[.integer o,.integer n],blocks,code⟩ 1)=some ps:=hrange
 obtain⟨hweighted,htotal⟩:=weighted_tally id (s.length_list.trans_lt hs)
 rw[s.length_list]at htotal
 refine⟨⟨rfl,?_,?_⟩,fun hlow hone=>?_⟩
 ·simp only[ofRange,call,hrange,Option.map_some,Option.elim,distribution_eq,hps,htotal]
 ·rw[distribution_eq,hps,hweighted,sum_eq]
  exact sum_toNat s.list
 ·have hint (c:UInt8) (hc:c∈s.list):c.toInt8.toInt=c.toNat:=by
   rw[toInt_toInt8,if_neg (UInt8.not_le.mpr (hlow c hc)),mul_zero,add_zero]
  have hsigned:s.list.map signed=s.list.map unsigned :=
   List.map_congr_left fun c hc=>by rw[signed,hint c hc];rfl
  have hchar:s.list.map character=s.list.map value:=List.map_congr_left hint
  have hwidened:s.list.map widened=s.list.map UInt8.toNat :=
   List.map_congr_left fun c hc=>widened_eq c (hlow c hc)
  subst hone
  refine⟨?_,?_,?_,?_⟩
  ·have htext:ofText .correlationOfText=
    .float (correlation (Sums.none.addBytes signed s) (firstOf signed 0 s) s.size):=rfl
   simp only[htext,ofRange,call,hrange,Option.elim,List.foldl_cons,List.foldl_nil,addBytes_eq,
    firstOf_eq,hsigned,hps]
  ·have htext:ofText .piOfText=.float (Points.addBytes widened {} s).error:=rfl
   simp only[htext,ofRange,call,hrange,Option.elim,List.foldl_cons,List.foldl_nil,points_addBytes,hwidened]
  ·rw[List.foldl_cons,List.foldl_nil,addBytes_eq,addBytes_eq,hchar]
  ·rw[List.foldl_cons,List.foldl_nil,firstOf_eq,firstOf_eq,hchar]
theorem overloads_agree_letters :
 let blocks:=layout 0 [concat Scan.halves]
 call .piOfText ⟨[.text ⟨#[98,99,100]⟩],blocks,.empty⟩ =
  call .piOfRange ⟨[.integer 1,.integer 3],blocks,.empty⟩:=
 ((@overloads_agree ⟨#[98,99,100]⟩ (by decide) _ _ _ [⟨#[98,99,100]⟩] (by decide +kernel) rfl
  .empty).2 (by decide +kernel) rfl).2.1

/-- The totals of a byte 128 in a text and in the data: its value, its product with the next byte, and the points
inside the circle. -/
theorem overloads_differ :
 let b : Bytes := ⟨#[128,1,0,0,0,0]⟩
 let character (c:UInt8) : ℤ := c.toInt8.toInt
 let value (c:UInt8) : ℤ := c.toNat
 sum character b=-127∧weighted Nat.cast id (distribution [b])=(129:ℤ)∧
 (Sums.none.addBytes character b).products=-128∧(Sums.none.addBytes value b).products=128∧
 (Points.addBytes widened {} b).inside=0∧(Points.addBytes UInt8.toNat {} b).inside=1:=by
 decide +kernel
end PatternScan.Module.Math
