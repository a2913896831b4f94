/-! Lists that are linked in both directions. The cells of a list have the numbers in which they were made. -/
namespace PatternScan
open List
structure Links.Cell (α:Type) where
 value:α
 prev:Option Nat:=none
 next:Option Nat:=none
deriving Inhabited
structure Links (α:Type) where
 cells:Array (Links.Cell α):=#[]
 head:Option Nat:=none
 tail:Option Nat:=none
 count:Nat:=0
namespace Links
variable {α:Type}[Inhabited α]{l l':Links α}{p q x:Option Nat}{i k:Nat}{ks xs ys:List Nat}
def cell (l:Links α)(k:Nat):Cell α:=l.cells.getD k default

/-- The cells from one on, `n` at most. -/
def walk (l:Links α):Nat→Option Nat→List Nat
 | n+1,some k=>k::l.walk n (l.cell k).next
 | _,_=>[]
def keys (l:Links α):List Nat:=l.walk l.count l.head
def alter (l:Links α)(k:Nat)(f:Cell α→Cell α):Links α:={l with cells:=l.cells.modify k f}
def push (l:Links α)(c:Cell α):Links α:={l with cells:=l.cells.push c,count:=l.count+1}
def setNext (l:Links α)(k:Nat)(x:Option Nat):Links α:=l.alter k fun c=>{c with next:=x}
def setPrev (l:Links α)(k:Nat)(x:Option Nat):Links α:=l.alter k fun c=>{c with prev:=x}
def linkNext (l:Links α)(p x:Option Nat):Links α:=
 match p with
 | some i=>l.setNext i x
 | none=>{l with head:=x}
def linkPrev (l:Links α)(q x:Option Nat):Links α:=
 match q with
 | some j=>l.setPrev j x
 | none=>{l with tail:=x}

/-- Makes a cell and puts it behind the cell `p`, or in front of all. -/
def insertAfter (l:Links α)(p:Option Nat)(a:α):Links α:=
 let k:=l.cells.size
 let next:=match p with | some i=>(l.cell i).next | none=>l.head
 ((l.push ⟨a,p,next⟩).linkNext p (some k)).linkPrev next (some k)
def unlink (l:Links α)(k:Nat):Links α:=
 let c:=l.cell k
 let l:=match c.prev with | some i=>l.setNext i c.next | none=>l
 let l:=match c.next with | some j=>l.setPrev j c.prev | none=>l
 let l:=if l.head==some k then {l with head:=c.next} else l
 let l:=if l.tail==some k then {l with tail:=c.prev} else l
 {l.alter k fun c=>{c with prev:=none,next:=none} with count:=l.count-1}

/-- The cells `ks` are linked to each other in this order, the first one to `p` and the last one to `q`. -/
def Segment (l:Links α)(p q:Option Nat):List Nat→Prop
 | []=>True
 | k::ks=>k<l.cells.size∧(l.cell k).prev=p∧(l.cell k).next=ks.head?.or q∧Segment l (some k) q ks
structure Threaded (l:Links α)(ks:List Nat):Prop where
 nodup:ks.Nodup
 segment:l.Segment none none ks
 head:l.head=ks.head?
 tail:l.tail=ks.getLast?
 count:l.count=ks.length

/-! ## Segments -/
theorem Segment.lt (h:l.Segment p q ks):∀k∈ks,k<l.cells.size:=by
 induction ks generalizing p with
 | nil=>exact nofun
 | cons k ks ih=>exact forall_mem_cons.2 ⟨h.1,ih h.2.2.2⟩
theorem Segment.congr (hs:∀k∈ks,k<l'.cells.size)
 (hc:∀k∈ks,(l'.cell k).prev=(l.cell k).prev∧(l'.cell k).next=(l.cell k).next)
 (h:l.Segment p q ks):l'.Segment p q ks:=by
 induction ks generalizing p with
 | nil=>trivial
 | cons k ks ih=>
  obtain⟨-,hp,hn,ht⟩:=h
  rw[forall_mem_cons]at hs hc
  exact⟨hs.1,hc.1.1.trans hp,hc.1.2.trans hn,ih hs.2 hc.2 ht⟩
theorem Segment.next_eq (h:l.Segment p q ks)(hk:ks[i]? =some k):(l.cell k).next=ks[i+1]?.or q:=by
 induction ks generalizing p i with
 | nil=>cases hk
 | cons j ks ih=>
  cases i with
  | zero=>
   cases hk
   rw[h.2.2.1,getElem?_cons_succ,head?_eq_getElem?]
  | succ i=>exact ih h.2.2.2 hk
theorem Segment.prev_eq (h:l.Segment p q ks)(hk:ks[i]? =some k):
 (l.cell k).prev=if i=0 then p else ks[i-1]?:=by
 induction ks generalizing p i with
 | nil=>cases hk
 | cons j ks ih=>
  cases i with
  | zero=>
   cases hk
   exact h.2.1
  | succ i=>
   rw[ih h.2.2.2 hk]
   cases i<;>rfl
theorem segment_append:l.Segment p q (xs++ys)↔
 l.Segment p (ys.head?.or q) xs∧l.Segment (xs.getLast?.or p) q ys:=by
 induction xs generalizing p with
 | nil=>simp[Segment]
 | cons k xs ih=>
  simp only[cons_append,Segment,ih,head?_append,Option.or_assoc,getLast?_cons,Option.some_or]
  cases xs.getLast?<;>simp[and_assoc]
theorem Segment.walk_eq (h:l.Segment p none ks):l.walk ks.length ks.head?=ks:=by
 induction ks generalizing p with
 | nil=>rfl
 | cons k ks ih=>
  obtain⟨-,-,hn,ht⟩:=h
  rw[length_cons,head?_cons,walk,hn,Option.or_none,ih ht]
theorem Threaded.keys_eq (h:l.Threaded ks):l.keys=ks:=by
 rw[keys,h.count,h.head,h.segment.walk_eq]
theorem cell_alter (f:Cell α→Cell α)(hi:i<l.cells.size):
 (l.alter i f).cell k=if i=k then f (l.cell k) else l.cell k:=by
 simp only[cell,alter,Array.getD_eq_getD_getElem?,Array.getElem?_modify]
 split
 ·next h=>
  subst h
  simp[hi]
 ·rfl
omit [Inhabited α] in
theorem size_alter (f:Cell α→Cell α):(l.alter i f).cells.size=l.cells.size:=Array.size_modify
theorem cell_push (c:Cell α):(l.push c).cell k=if k=l.cells.size then c else l.cell k:=by
 simp only[cell,push,Array.getD_eq_getD_getElem?,Array.getElem?_push]
 split<;>rfl
theorem Segment.push (c:Cell α)(h:l.Segment p q ks):(l.push c).Segment p q ks:=by
 refine h.congr (fun k hk=>?_) fun k hk=>?_
 ·have:=h.lt k hk
  simp only[Links.push,Array.size_push]
  omega
 ·rw[cell_push,if_neg (Nat.ne_of_lt (h.lt k hk))]
  exact⟨rfl,rfl⟩
theorem Segment.alter (f:Cell α→Cell α)(hi:i<l.cells.size)(hk:i∉ks)(h:l.Segment p q ks):
 (l.alter i f).Segment p q ks:=by
 refine h.congr (fun k hm=>?_) fun k hm=>?_
 ·rw[size_alter]
  exact h.lt k hm
 ·rw[cell_alter f hi,if_neg fun he:i=k=>hk (he▸hm)]
  exact⟨rfl,rfl⟩
theorem Segment.recount (n:Nat)(h:l.Segment p q ks):({l with count:=n}:Links α).Segment p q ks:=
 Segment.congr (l:=l) h.lt (fun _ _=>⟨rfl,rfl⟩) h
theorem Segment.linkNext (hn:xs.Nodup)(h:l.Segment p q xs):(l.linkNext xs.getLast? x).Segment p x xs:=by
 rcases eq_nil_or_concat xs with rfl|⟨xs,i,rfl⟩
 ·trivial
 rw[concat_eq_append]at hn h⊢
 rw[getLast?_concat,Links.linkNext,setNext]
 rw[segment_append]at h⊢
 obtain⟨hxs,hi,hp,-⟩:=h
 refine⟨hxs.alter _ hi fun hm=>(nodup_append.1 hn).2.2 i hm i mem_cons_self rfl,?_⟩
 refine⟨by rwa[size_alter],?_,?_,trivial⟩
 ·rwa[cell_alter _ hi,if_pos rfl]
 ·rw[cell_alter _ hi,if_pos rfl]
  rfl
theorem Segment.linkPrev (hn:ys.Nodup)(h:l.Segment p q ys):(l.linkPrev ys.head? x).Segment x q ys:=by
 cases ys with
 | nil=>trivial
 | cons i ys=>
  rw[head?_cons,Links.linkPrev,setPrev]
  obtain⟨hi,-,hne,ht⟩:=h
  refine⟨by rwa[size_alter],?_,?_,ht.alter _ hi (nodup_cons.1 hn).1⟩
  ·rw[cell_alter _ hi,if_pos rfl]
  ·rwa[cell_alter _ hi,if_pos rfl]
theorem Segment.of_linkNext (hi:∀i∈xs.getLast?,i<l.cells.size)(hd:∀i∈xs,i∉ys)(h:l.Segment p q ys):
 (l.linkNext xs.getLast? x).Segment p q ys:=by
 cases hx:xs.getLast? with
 | none=>exact Segment.congr (l:=l) h.lt (fun _ _=>⟨rfl,rfl⟩) h
 | some i=>exact h.alter _ (hi i hx) (hd i (mem_of_getLast? hx))
theorem Segment.of_linkPrev (hi:∀i∈ys.head?,i<l.cells.size)(hd:∀i∈ys,i∉xs)(h:l.Segment p q xs):
 (l.linkPrev ys.head? x).Segment p q xs:=by
 cases hx:ys.head? with
 | none=>exact Segment.congr (l:=l) h.lt (fun _ _=>⟨rfl,rfl⟩) h
 | some i=>exact h.alter _ (hi i hx) (hd i (mem_of_head? hx))
section
omit [Inhabited α]
theorem size_linkNext:(l.linkNext p x).cells.size=l.cells.size:=by
 cases p with
 | none=>rfl
 | some i=>exact size_alter _
theorem tail_linkNext:(l.linkNext p x).tail=l.tail:=by cases p<;>rfl
theorem count_linkNext:(l.linkNext p x).count=l.count:=by cases p<;>rfl
theorem size_linkPrev:(l.linkPrev q x).cells.size=l.cells.size:=by
 cases q with
 | none=>rfl
 | some i=>exact size_alter _
theorem head_linkPrev:(l.linkPrev q x).head=l.head:=by cases q<;>rfl
theorem count_linkPrev:(l.linkPrev q x).count=l.count:=by cases q<;>rfl
theorem head_linkNext (h:l.head=xs.head?.or p):(l.linkNext xs.getLast? x).head=xs.head?.or x:=by
 cases hx:xs.getLast? with
 | none=>rw[getLast?_eq_none_iff.1 hx];rfl
 | some i=>
  obtain⟨k,hk⟩:=Option.isSome_iff_exists.1 (isSome_head?.2 (ne_nil_of_mem (mem_of_getLast? hx)))
  rw[hk]at h⊢
  exact h
theorem tail_linkPrev (h:l.tail=ys.getLast?.or p):(l.linkPrev ys.head? x).tail=ys.getLast?.or x:=by
 cases hx:ys.head? with
 | none=>rw[head?_eq_none_iff.1 hx];rfl
 | some i=>
  obtain⟨k,hk⟩:=Option.isSome_iff_exists.1 (getLast?_isSome.2 (ne_nil_of_mem (mem_of_head? hx)))
  rw[hk]at h⊢
  exact h
end
theorem value_alter {f:Cell α→Cell α}(hf:∀c,(f c).value=c.value):((l.alter i f).cell k).value=(l.cell k).value:=by
 simp only[cell,alter,Array.getD_eq_getD_getElem?,Array.getElem?_modify]
 split
 ·cases l.cells[k]? with
  | none=>rfl
  | some c=>exact hf c
 ·rfl
theorem value_linkNext:((l.linkNext p x).cell k).value=(l.cell k).value:=by
 cases p with
 | none=>rfl
 | some i=>exact value_alter fun _=>rfl
theorem value_linkPrev:((l.linkPrev q x).cell k).value=(l.cell k).value:=by
 cases q with
 | none=>rfl
 | some i=>exact value_alter fun _=>rfl

/-! ## Insertion and removal -/
theorem Threaded.insertAfter (h:l.Threaded (xs++ys))(a:α):
 (l.insertAfter xs.getLast? a).Threaded (xs++l.cells.size::ys):=by
 obtain⟨hxs,hys⟩:=segment_append.1 h.segment
 rw[Option.or_none]at hxs hys
 obtain⟨hnx,hny,hd⟩:=nodup_append.1 h.nodup
 have hnext:(match xs.getLast? with | some i=>(l.cell i).next | none=>l.head)=ys.head?:=by
  rcases eq_nil_or_concat xs with rfl|⟨xs,i,rfl⟩
  ·exact h.head
  ·rw[concat_eq_append,getLast?_concat]
   rw[concat_eq_append,segment_append]at hxs
   simpa using hxs.2.2.2.1
 -- The new cell is a segment of its own, between the cells before it and those behind it.
 let c:Cell α:=⟨a,xs.getLast?,ys.head?⟩
 have hself:(l.push c).Segment xs.getLast? ys.head? [l.cells.size]:=by
  refine⟨by simp[push],?_,?_,trivial⟩<;>rw[cell_push,if_pos rfl]
  rfl
 have hxn:l.cells.size∉xs:=fun hm=>Nat.lt_irrefl _ (hxs.lt _ hm)
 have hyn:l.cells.size∉ys:=fun hm=>Nat.lt_irrefl _ (hys.lt _ hm)
 have hlx:∀i∈xs.getLast?,i<(l.push c).cells.size:=fun i hi=>(hxs.push c).lt i (mem_of_getLast? hi)
 have hly:∀i∈ys.head?,i<((l.push c).linkNext xs.getLast? (some l.cells.size)).cells.size:=by
  rw[size_linkNext]
  exact fun i hi=>(hys.push c).lt i (mem_of_head? hi)
 have hout:∀{zs:List Nat},l.cells.size∉zs→∀i∈zs,i∉[l.cells.size]:=fun hz i hi he=>hz (mem_singleton.1 he▸hi)
 unfold Links.insertAfter
 dsimp only
 rw[hnext]
 constructor
 case nodup=>
  refine nodup_append.2 ⟨hnx,nodup_cons.2 ⟨hyn,hny⟩,fun i hi j hj=>?_⟩
  rcases mem_cons.1 hj with rfl|hj
  ·exact fun he=>hxn (he▸hi)
  ·exact hd i hi j hj
 case segment=>
  rw[segment_append,←singleton_append,segment_append]
  simp only[Option.or_none,singleton_append,head?_cons,getLast?_singleton,Option.some_or]
  exact⟨.of_linkPrev hly (fun i hi hm=>hd i hm i hi rfl) (.linkNext hnx (hxs.push c)),
   .of_linkPrev hly (hout hyn) (.of_linkNext hlx (hout hxn) hself),
   .linkPrev hny (.of_linkNext hlx (fun i hi hm=>hd i hi i hm rfl) (hys.push c))⟩
 case head=>
  have hh:(l.push c).head=xs.head?.or ys.head?:=h.head.trans head?_append
  rw[head_linkPrev,head_linkNext hh,head?_append,head?_cons]
 case tail=>
  have ht:(l.push c).tail=ys.getLast?.or xs.getLast?:=h.tail.trans getLast?_append
  rw[tail_linkPrev (tail_linkNext.trans ht),getLast?_append,getLast?_cons]
  cases ys.getLast?<;>rfl
 case count=>
  rw[count_linkPrev,count_linkNext,push,h.count,length_append,length_append,length_cons,Nat.add_assoc]
theorem value_insertAfter (a:α):
 ((l.insertAfter p a).cell k).value=if k=l.cells.size then a else (l.cell k).value:=by
 unfold Links.insertAfter
 dsimp only
 rw[value_linkPrev,value_linkNext,cell_push]
 split<;>rfl
theorem Threaded.head_iff (h:l.Threaded (xs++k::ys)):l.head=some k↔xs=[]:=by
 have hk:k∉xs:=fun hm=>(nodup_append.1 h.nodup).2.2 k hm k mem_cons_self rfl
 rw[h.head]
 cases xs with
 | nil=>simp
 | cons i xs=>simpa using fun he:i=k=>hk (he▸mem_cons_self)
theorem Threaded.tail_iff (h:l.Threaded (xs++k::ys)):l.tail=some k↔ys=[]:=by
 have hk:=(nodup_cons.1 (nodup_append.1 h.nodup).2.1).1
 rw[h.tail]
 rcases eq_nil_or_concat ys with rfl|⟨ys,i,rfl⟩
 ·simp
 ·rw[concat_eq_append,←cons_append,←append_assoc,getLast?_concat]
  simpa using fun he:i=k=>hk (he▸by simp)
theorem Threaded.unlink_eq (h:l.Threaded (xs++k::ys)):
 l.unlink k={((l.linkNext xs.getLast? ys.head?).linkPrev ys.head? xs.getLast?).alter k
  (fun c=>{c with prev:=none,next:=none}) with count:=l.count-1}:=by
 obtain⟨-,-,hp,hn,-⟩:=segment_append.1 h.segment
 rw[Option.or_none]at hp hn
 have hxs:=h.head_iff
 have hys:=h.tail_iff
 unfold unlink
 dsimp only
 rw[hp,hn]
 cases hgx:xs.getLast? with
 | none=>
  have hh:=hxs.2 (getLast?_eq_none_iff.1 hgx)
  cases hgy:ys.head? with
  | none=>
   have ht:=hys.2 (head?_eq_none_iff.1 hgy)
   simp[linkNext,linkPrev,hh,ht]
  | some j=>
   have ht:l.tail≠some k:=fun he=>by simp[hys.1 he]at hgy
   simp[linkNext,linkPrev,setPrev,alter,hh,ht]
 | some i=>
  have hh:l.head≠some k:=fun he=>by simp[hxs.1 he]at hgx
  cases hgy:ys.head? with
  | none=>
   have ht:=hys.2 (head?_eq_none_iff.1 hgy)
   simp[linkNext,linkPrev,setNext,alter,hh,ht]
  | some j=>
   have ht:l.tail≠some k:=fun he=>by simp[hys.1 he]at hgy
   simp[linkNext,linkPrev,setNext,setPrev,alter,hh,ht]
theorem Threaded.unlink (h:l.Threaded (xs++k::ys)):(l.unlink k).Threaded (xs++ys):=by
 rw[h.unlink_eq]
 obtain⟨hxs,hk,-,-,hys⟩:=segment_append.1 h.segment
 obtain⟨hnx,hny,hd⟩:=nodup_append.1 h.nodup
 obtain⟨hky,hny⟩:=nodup_cons.1 hny
 have hkx:k∉xs:=fun hm=>hd k hm k mem_cons_self rfl
 have hd:∀i∈xs,i∉ys:=fun i hi hm=>hd i hi i (mem_cons_of_mem _ hm) rfl
 have hlx:∀i∈xs.getLast?,i<l.cells.size:=fun i hi=>hxs.lt i (mem_of_getLast? hi)
 have hly:∀i∈ys.head?,i<(l.linkNext xs.getLast? ys.head?).cells.size:=by
  rw[size_linkNext]
  exact fun i hi=>hys.lt i (mem_of_head? hi)
 have hlt:k<((l.linkNext xs.getLast? ys.head?).linkPrev ys.head? xs.getLast?).cells.size:=by
  rw[size_linkPrev,size_linkNext]
  exact hk
 constructor
 case nodup=>exact nodup_append.2 ⟨hnx,hny,fun i hi j hj he=>hd i hi (he▸hj)⟩
 case segment=>
  rw[segment_append]
  simp only[Option.or_none]
  exact⟨.recount _ (.alter _ hlt hkx (.of_linkPrev hly (fun i hi hm=>hd i hm hi) (.linkNext hnx hxs))),
   .recount _ (.alter _ hlt hky (.linkPrev hny (.of_linkNext hlx hd hys)))⟩
 case head=>
  have hh:l.head=xs.head?.or (some k):=by rw[h.head,head?_append,head?_cons]
  change ((l.linkNext _ _).linkPrev _ _).head=_
  rw[head_linkPrev,head_linkNext hh,head?_append]
 case tail=>
  have ht:l.tail=ys.getLast?.or (some k):=by
   rw[h.tail,getLast?_append,getLast?_cons]
   cases ys.getLast?<;>rfl
  change ((l.linkNext _ _).linkPrev _ _).tail=_
  rw[tail_linkPrev (tail_linkNext.trans ht),getLast?_append]
 case count=>
  change l.count-1=_
  rw[h.count,length_append,length_append,length_cons,←Nat.add_assoc,Nat.add_sub_cancel]
theorem Threaded.value_unlink (h:l.Threaded (xs++k::ys))(i:Nat):((l.unlink k).cell i).value=(l.cell i).value:=by
 rw[h.unlink_eq]
 refine .trans (value_alter (l:=(l.linkNext _ _).linkPrev _ _) fun _=>rfl) ?_
 rw[value_linkPrev,value_linkNext]
theorem Threaded.alter {f:Cell α→Cell α}(hf:∀c,(f c).prev=c.prev∧(f c).next=c.next)(h:l.Threaded ks):
 (l.alter k f).Threaded ks:=by
 refine⟨h.nodup,h.segment.congr (fun i hi=>?_) fun i _=>?_,h.head,h.tail,h.count⟩
 ·rw[size_alter]
  exact h.segment.lt i hi
 simp only[cell,Links.alter,Array.getD_eq_getD_getElem?,Array.getElem?_modify]
 split
 ·cases l.cells[i]? with
  | none=>exact⟨rfl,rfl⟩
  | some c=>exact hf c
 ·exact⟨rfl,rfl⟩
end Links

/-- A list whose cells are linked from the first one to the last one and back, and counted. -/
structure LinkedList (α:Type)[Inhabited α] extends Links α where
 linked:toLinks.Threaded toLinks.keys
namespace LinkedList
variable {α:Type}[Inhabited α]
def empty:LinkedList α:=⟨{},⟨nodup_nil,trivial,rfl,rfl,rfl⟩⟩
instance:Inhabited (LinkedList α):=⟨empty⟩
def size (l:LinkedList α):Nat:=l.count
def isEmpty (l:LinkedList α):Bool:=l.head.isNone
def get (l:LinkedList α)(k:Nat):α:=(l.cell k).value
def toList (l:LinkedList α):List α:=l.keys.map l.get
instance:Membership α (LinkedList α):=⟨fun l a=>a∈l.toList⟩
def ofThreaded (l:Links α)(h:∃ks,l.Threaded ks):LinkedList α:=
 ⟨l,let ⟨_,h⟩:=h;h.keys_eq.symm▸h⟩
def modify (l:LinkedList α)(k:Nat)(f:α→α):LinkedList α:=
 ofThreaded (l.alter k fun c=>{c with value:=f c.value}) ⟨l.keys,l.linked.alter fun _=>⟨rfl,rfl⟩⟩
def insertAfter (l:LinkedList α)(p:Option Nat)(a:α)(h:∃xs ys,l.keys=xs++ys∧p=xs.getLast?):LinkedList α:=
 ofThreaded (l.toLinks.insertAfter p a) (let ⟨_,_,hk,hp⟩:=h;⟨_,hp▸(hk▸l.linked).insertAfter a⟩)
def remove (l:LinkedList α)(k:Nat):LinkedList α:=
 if h:k∈l.keys then ofThreaded (l.unlink k) (let ⟨_,_,hk⟩:=append_of_mem h;⟨_,(hk▸l.linked).unlink⟩)
 else l

/-! ## The values in order -/
variable {l:LinkedList α}{k:Nat}
theorem length_toList:l.toList.length=l.size:=by rw[toList,length_map,size,l.linked.count]
theorem isEmpty_iff:l.isEmpty=true↔l.toList=[]:=by
 rw[isEmpty,l.linked.head,Option.isNone_iff_eq_none,head?_eq_none_iff,toList,map_eq_nil_iff]
theorem keys_modify (f:α→α):(l.modify k f).keys=l.keys:=by
 refine Links.Threaded.keys_eq (l:=(l.modify k f).toLinks) ?_
 exact l.linked.alter fun _=>⟨rfl,rfl⟩
theorem toList_modify (f:α→α):
 (l.modify k f).toList=l.keys.map fun i=>if k=i then f (l.get i) else l.get i:=by
 rw[toList,keys_modify]
 refine map_congr_left fun i hi=>?_
 by_cases h:k=i
 ·subst h
  rw[if_pos rfl]
  change ((l.alter k _).cell k).value=_
  rw[Links.cell_alter _ (l.linked.segment.lt k hi),if_pos rfl]
  rfl
 ·rw[if_neg h]
  change ((l.alter k _).cell i).value=_
  simp only[get,Links.cell,Links.alter,Array.getD_eq_getD_getElem?,Array.getElem?_modify,if_neg h]
theorem toList_insertAfter {xs ys:List Nat}{a:α}(hk:l.keys=xs++ys)(h):
 (l.insertAfter xs.getLast? a h).toList=xs.map l.get++a::ys.map l.get:=by
 have ht:=l.linked
 rw[hk]at ht
 have hkeys:(l.insertAfter xs.getLast? a h).keys=xs++l.cells.size::ys:=(ht.insertAfter a).keys_eq
 have hget:∀i,(l.insertAfter xs.getLast? a h).get i=if i=l.cells.size then a else l.get i:=
  fun i=>Links.value_insertAfter a
 have hold:∀i∈xs++ys,(l.insertAfter xs.getLast? a h).get i=l.get i:=by
  intro i hi
  rw[hget,if_neg (Nat.ne_of_lt (ht.segment.lt i hi))]
 rw[toList,hkeys,map_append,map_cons,hget,if_pos rfl,
  map_congr_left fun i hi=>hold i (mem_append_left _ hi),map_congr_left fun i hi=>hold i (mem_append_right _ hi)]
theorem get_remove (i:Nat):(l.remove k).get i=l.get i:=by
 unfold remove
 split
 ·next h=>
  obtain⟨xs,ys,hk⟩:=append_of_mem h
  exact (hk▸l.linked:l.Threaded (xs++k::ys)).value_unlink i
 ·rfl
theorem keys_remove:(l.remove k).keys=l.keys.erase k:=by
 unfold remove
 split
 ·next h=>
  obtain⟨xs,ys,hk⟩:=append_of_mem h
  have ht:=l.linked
  rw[hk]at ht
  have hx:k∉xs:=fun hm=>(nodup_append.1 ht.nodup).2.2 k hm k mem_cons_self rfl
  rw[hk,erase_append_right _ hx,erase_cons_head]
  exact ht.unlink.keys_eq
 ·next h=>exact (erase_of_not_mem h).symm
theorem toList_remove:(l.remove k).toList=(l.keys.erase k).map l.get:=by
 rw[toList,keys_remove,map_congr_left fun i _=>get_remove i]
end LinkedList
end PatternScan
