import PatternScan.Proofs.Automaton.Search
import PatternScan.Proofs.Regex.Anchor
import PatternScan.Proofs.Regex.Language
import PatternScan.Proofs.Regex.Targets
/-! A string is verified from one of its leaves: forwards to the end of the pattern and backwards to its
start. -/
namespace PatternScan
open Bool (and_eq_true false_eq_true)
open Option List Regex.Input Regex.Derivation Relation
variable {s m e k y anchor pos:Nat}{T:Nat→Nat→Prop}{b:UInt8}
lemma Bytes.drop_list (b:Bytes)(h:s<b.size):b.list.drop s=b.byteAt s::b.list.drop (s+1):=by
 have hl:s<b.list.length:=by rwa[b.length_list]
 rw[drop_eq_getElem_cons hl,byteAt,dif_pos h]
 rfl
namespace Regex
open Machine
open Emission (leaf?)
variable (v:Nat→Inst→Verdict)(back:Bool)
namespace Node
mutual
def simple:Node→Bool
 | .cat parts=>!parts.isEmpty&&simpleList parts
 | .alt l r=>l.simple&&r.simple
 | .star _ e | .plus _ e=>e.simple
 | .empty | .start | .stop | .boundary | .nonBoundary | .range _ _ _ _=>false
 | _=>true
def simpleList:List Node→Bool
 | []=>true
 | n::ns=>n.simple&&simpleList ns
end
mutual
/-- There is no counted loop, and the body of each `+` opens with the instruction that counts as its
first. -/
def faithful (back:Bool):Node→Bool
 | .cat parts=>faithfulList back parts
 | .alt l r=>l.faithful back&&r.faithful back
 | .star _ e=>e.faithful back
 | .plus _ e=>e.opens back&&e.faithful back
 | .range lo hi _ e=>!hasLoop lo hi&&e.faithful back
 | .stop=>!back
 | _=>true
def faithfulList (back:Bool):List Node→Bool
 | []=>true
 | n::ns=>n.faithful back&&faithfulList back ns
end
lemma simple_opens (n:Node):n.simple=true→n.opens back=true∧n.faithful back=true∧n.weight=0:=by
 induction n using induction (Q:=fun ns=>simpleList ns=true→
  (ns≠[] → opensList back ns=true)∧faithfulList back ns=true∧weightList ns=0) with
 | leaf n hn=>
  intro h
  cases n<;>first | exact⟨rfl,rfl,rfl⟩ | exact hn.elim | cases h
 | cat pr ih=>
  intro h
  rw[simple,Bool.and_eq_true]at h
  exact⟨(ih h.2).1 (by simpa using h.1),(ih h.2).2⟩
 | alt l r ihl ihr=>
  intro h
  rw[simple,Bool.and_eq_true]at h
  exact⟨rfl,by simp[faithful,weight,ihl h.1,ihr h.2]⟩
 | star g e ih=>exact fun h=>⟨rfl,(ih h).2⟩
 | plus g e ih=>exact fun h=>⟨(ih h).1,by simp[faithful,weight,ih h]⟩
 | range=>rintro⟨⟩
 | nil _=>exact⟨fun h=>absurd rfl h,rfl,rfl⟩
 | cons n ns ihn ihns h=>
  rw[simpleList,Bool.and_eq_true]at h
  refine⟨fun _=>?_,by simp[faithfulList,weightList,ihn h.1,ihns h.2]⟩
  rw[opensList]
  split
  ·split
   ·exact (ihn h.1).1
   ·next hns=>exact (ihns h.2).1 (by simpa using hns)
  ·exact (ihn h.1).1
lemma faithful_steady (n:Node):n.faithful back=true→
 (n.face back).looped=false∧n.steady back=true:=by
 induction n using induction (Q:=fun ns=>faithfulList back ns=true→
  (faceList back ns).looped=false∧steadyList back ns=true) with
 | leaf n hn=>
  intro _
  cases n<;>first | exact⟨rfl,rfl⟩ | exact hn.elim
 | cat pr ih=>exact ih
 | alt l r ihl ihr=>
  intro h
  rw[faithful,Bool.and_eq_true]at h
  exact⟨by simp[face,Face.alt,ihl h.1,ihr h.2],by rw[steady,(ihl h.1).2,(ihr h.2).2,Bool.and_self]⟩
 | star g e ih=>
  intro h
  exact⟨by simp[face,Face.option,Face.alt,Face.nil,ih h],by simp[steady,ih h,Face.recurs]⟩
 | plus g e ih=>
  intro h
  rw[faithful,Bool.and_eq_true]at h
  exact⟨by simp[face,Face.plus,ih h.2],by simp[steady,ih h.2,Face.recurs]⟩
 | range lo hi g e ih=>
  intro h
  rw[faithful,Bool.and_eq_true,Bool.not_eq_true']at h
  refine⟨?_,by simp[steady,ih h.2,h.1]⟩
  rw[face,h.1,if_neg Bool.false_ne_true]
  split_ifs<;>simp[Face.seq,Face.option,Face.alt,Face.nil,ih h.2]
 | nil=>exact⟨rfl,rfl⟩
 | cons n ns ihn ihns h=>
  rw[faithfulList,Bool.and_eq_true]at h
  rw[faceList,steadyList]
  split<;>simp[Face.seq,ihn h.1,ihns h.2]
lemma simple_steady (n:Node)(h:n.simple=true):n.steady back=true:=
 (n.faithful_steady back (n.simple_opens back h).2.1).2
end Node
section
variable (f:RunFlags)(inp:Input)
def Input.Near (e:Nat):Prop:=
 if f.backwards then inp.pos≤e+reach f inp else e ≤ inp.pos+reach f inp

/-- What a run goes through is just what a relation between places in the text has. -/
structure Mirrors (R T:Nat→Nat→Prop):Prop where
 traces:Traces f inp R T
 onward:∀s e,T s e→if f.backwards then e ≤ s else s≤e
 covers:∀i e,i*width f≤reach f inp→inp.Near f e→T (inp.place f i) e→
  ∃j,j*width f≤reach f inp∧e=inp.place f j∧R i j
variable {f inp}{R S U:Nat→Nat→Prop}
namespace Mirrors
lemma eq:Mirrors f inp Eq Eq where
 traces:=.eq
 onward s e h:=by rw[h,ite_self]
 covers i _ hi _ h:=⟨i,hi,h.symm,rfl⟩
lemma near (hU:Mirrors f inp S U)(h:U m e)(he:inp.Near f e):inp.Near f m:=by
 have:=hU.onward m e h
 unfold Near at he⊢
 grind
section
variable (hR:Mirrors f inp R T)
include hR
lemma comp (hS:Mirrors f inp S U):Mirrors f inp (Comp R S) (Comp T U) where
 traces:=hR.traces.comp hS.traces
 onward:=by
  rintro s e ⟨m,hm,he⟩
  have h1:=hR.onward s m hm
  have h2:=hS.onward m e he
  grind
 covers:=by
  rintro i e hi he ⟨m,hm,hme⟩
  obtain⟨k,hk,rfl,hik⟩:=hR.covers i m hi (hS.near hme he) hm
  obtain⟨j,hj,rfl,hkj⟩:=hS.covers k e hk he hme
  exact⟨j,hj,rfl,k,hik,hkj⟩
lemma or (hS:Mirrors f inp S U):Mirrors f inp (fun i j=>R i j∨S i j) fun s e=>T s e∨U s e where
 traces:=hR.traces.or hS.traces
 onward s e h:=h.elim (hR.onward s e) (hS.onward s e)
 covers:=by
  rintro i e hi he (h|h)
  ·obtain⟨j,hj,rfl,hij⟩:=hR.covers i e hi he h
   exact⟨j,hj,rfl,.inl hij⟩
  ·obtain⟨j,hj,rfl,hij⟩:=hS.covers i e hi he h
   exact⟨j,hj,rfl,.inr hij⟩
lemma times (n:Nat):Mirrors f inp (Times R n) (Times T n):=by
 induction n with
 | zero=>exact .eq
 | succ n ih=>exact hR.comp ih
lemma between (lo hi:Nat):Mirrors f inp (Between R lo hi) (Between T lo hi) where
 traces:=hR.traces.between lo hi
 onward:=by
  rintro s e ⟨n,-,-,h⟩
  exact (hR.times n).onward s e h
 covers:=by
  rintro i e hi he ⟨n,hlo,hhi,h⟩
  obtain⟨j,hj,rfl,hij⟩:=(hR.times n).covers i e hi he h
  exact⟨j,hj,rfl,n,hlo,hhi,hij⟩
lemma reflTransGen:Mirrors f inp (ReflTransGen R) (ReflTransGen T) where
 traces:=hR.traces.reflTransGen
 onward:=by
  intro s e h
  obtain⟨n,hn⟩:=reflTransGen_iff_times.1 h
  exact (hR.times n).onward s e hn
 covers:=by
  intro i e hi he h
  obtain⟨n,hn⟩:=reflTransGen_iff_times.1 h
  obtain⟨j,hj,rfl,hij⟩:=(hR.times n).covers i e hi he hn
  exact⟨j,hj,rfl,reflTransGen_iff_times.2 ⟨n,hij⟩⟩
end
end Mirrors
lemma Node.IsCharacter.mirrors {n:Node}(hn:n.IsCharacter)(hp:inp.pos ≤ inp.data.size){back:Bool}:
 Mirrors f inp (n.Spans (look f inp) back) (along f ((inp.text f).Takes n)) where
 traces:=hn.traces hp
 onward s e h:=by
  unfold along at h
  split at h
  ·rename_i hb
   obtain⟨rfl,-⟩:=h
   grind
  ·rename_i hb
   obtain⟨rfl,-⟩:=h
   grind
 covers i e hi he h:=by
  obtain⟨hi',rfl,ht⟩:(i+1)*width f≤reach f inp∧e=inp.place f (i+1)∧
   (inp.text f).Takes n (inp.ahead f i) (inp.ahead f i+width f):=by
   unfold along at h
   unfold Near at he
   unfold place ahead at *
   rw[Nat.succ_mul]
   split at h
   ·rename_i hb
    simp only[if_pos hb]at *
    have heq:inp.pos-i*width f=e+width f:=h.1
    obtain rfl:e=inp.pos-(i*width f+width f):=by omega
    refine⟨by omega,rfl,?_⟩
    rw[←heq]
    exact h
   ·rename_i hb
    simp only[if_neg hb]at *
    have heq:e=inp.pos+i*width f+width f:=h.1
    grind
  obtain⟨hby,hbl⟩:=view_ahead hi' hp
  obtain⟨-,hc,ht⟩:=ht
  obtain⟨q,hq⟩:∃q,leaf? n=some q:=by cases n<;>first | exact hn.elim | exact⟨_,rfl⟩
  have hf:(f.wide&&decide (inp.data.byteAt (inp.ahead f i+1)≠0))=false:=by
   cases hw:f.wide with
   | false=>rfl
   | true=>
    have hz:inp.data.byteAt (inp.ahead f i+1)=0:=hc.2 hw
    simp[hz]
  have hr:look f inp i q=.read:=by
   rw[look,hn.verdict_eq hq,hbl,hby,hf,if_pos]
   exact ht
  refine⟨i+1,hi',rfl,?_⟩
  cases n<;>first | exact hn.elim | (cases hq;exact .inl ⟨hr,rfl⟩)
namespace Node
lemma mirrors_test {q:Inst}{P:Nat→Prop}(ok:View→Bool)(hq:∀v,verdict f v q=if ok v then .pass else .die)
 (h:∀i,i*width f≤reach f inp→(ok (view f inp (i*width f))=true↔P (inp.place f i))):
 Mirrors f inp (fun i j=>look f inp i q=.read∧j=i+1∨look f inp i q=.pass∧j=i) (along f fun s e=>s=e∧P s) where
 traces:=traces_test ok hq fun i hi=>(h i hi).1
 onward s e hse:=by
  rw[along_self]at hse
  rw[hse.1,ite_self]
 covers i e hi _ hse:=by
  rw[along_self]at hse
  refine⟨i,hi,hse.1.symm,.inr ⟨?_,rfl⟩⟩
  rw[look,hq,if_pos ((h i hi).2 hse.2)]
lemma IsLeaf.mirrors {n:Node}(hn:n.IsLeaf)(hs:n.faithful f.backwards=true)(ho:n.InOrder)
 (hp:inp.pos ≤ inp.data.size)(back:Bool):
 Mirrors f inp (n.Spans (look f inp) back) (along f (n.Occurs (inp.text f))):=by
 cases n with
 | gap lo hi g=>
  rw[spans_gap (limited_look f inp) ho.1 ho.2,Occurs,along_between]
  exact (IsCharacter.mirrors (n:=.any) trivial hp).between lo hi
 | empty=>
  rw[Occurs,along_eq]
  exact .eq
 | start=>exact mirrors_test View.first (fun _=>rfl) fun i _=>view_first
 | stop=>
  rw[faithful,Bool.not_eq_true']at hs
  exact mirrors_test View.last (fun _=>rfl) fun i hi=>view_last hs hi hp
 | boundary=>
  refine mirrors_test (fun v=>v.wordBefore != v.wordHere) (fun _=>rfl) fun i hi=>?_
  exact bne_iff_ne.trans (not_congr (view_words hi hp))
 | nonBoundary=>
  refine mirrors_test (fun v=>v.wordBefore==v.wordHere) (fun _=>rfl) fun i hi=>?_
  exact beq_iff_eq.trans (view_words hi hp)
 | cat | alt | star | plus | range=>exact hn.elim
 | _=>exact IsCharacter.mirrors (by trivial) hp
lemma again_eq_spans (n:Node):n.opens back=true → n.Again v back=n.Spans v back:=by
 induction n using induction (Q:=fun ns=>opensList back ns=true→
  AgainList v back ns=SpansList v back ns) with
 | leaf n hn=>
  intro ho
  cases n <;> first | rfl | exact hn.elim | cases ho
 | cat pr ih=>exact ih
 | alt l r _ _=>exact fun _=>rfl
 | star g e _=>exact fun _=>rfl
 | plus g e ih=>
  intro ho
  rw[Again,Spans,ih ho]
 | range lo hi g e ih=>
  intro ho
  rw[opens]at ho
  rw[Again,Spans]
  split at ho
  ·next hlo=>rw[if_pos hlo,if_pos hlo,ih ho]
  ·next hlo=>rw[if_neg hlo,if_neg hlo,if_pos ho,eq_comp]
 | nil ho=>cases ho
 | cons n ns ihn ihns ho=>
  rw[opensList]at ho
  rw[AgainList,SpansList]
  split at ho
  ·next hb=>
   rw[if_pos hb,if_pos hb]
   split at ho
   ·next hni=>rw[if_pos hni,List.isEmpty_iff.1 hni,SpansList,eq_comp,ihn ho]
   ·next hns=>rw[if_neg hns,ihns ho]
  ·next hb=>rw[if_neg hb,if_neg hb,ihn ho]

/-- The code of a faithful pattern takes a run over just the pieces that the pattern matches. -/
lemma faithful_mirrors (hp:inp.pos ≤ inp.data.size)(n:Node):n.faithful f.backwards=true→
 n.InOrder→Mirrors f inp (n.Spans (look f inp) f.backwards) (along f (n.Occurs (inp.text f))):=by
 induction n using induction (Q:=fun ns=>faithfulList f.backwards ns=true→InOrderList ns→
  Mirrors f inp (SpansList (look f inp) f.backwards ns) (along f (OccursList (inp.text f) ns))) with
 | leaf n hn=>exact fun hs ho=>hn.mirrors hs ho hp _
 | cat pr ih=>exact ih
 | alt l r ihl ihr=>
  intro hs ho
  rw[faithful,and_eq_true]at hs
  rw[Occurs,along_or]
  exact (ihl hs.1 ho.1).or (ihr hs.2 ho.2)
 | star g e ih=>
  intro hs ho
  rw[Occurs,along_reflTransGen]
  exact (ih hs ho).reflTransGen
 | plus g e ih=>
  intro hs ho
  rw[faithful,and_eq_true]at hs
  rw[along_plus,Spans,e.again_eq_spans _ _ hs.1]
  exact (ih hs.2 ho).comp (ih hs.2 ho).reflTransGen
 | range lo hi g e ih=>
  rintro hs ⟨hle,ho⟩
  rw[faithful,and_eq_true]at hs
  rw[spans_range hle,Occurs,along_between]
  exact (ih hs.2 ho).between lo hi
 | nil _ _=>
  rw[OccursList,along_eq]
  exact .eq
 | cons n ns ihn ihns hs ho=>
  rw[faithfulList,and_eq_true]at hs
  rw[SpansList,OccursList,along_comp]
  split
  ·exact (ihns hs.2 ho.2).comp (ihn hs.1 ho.1)
  ·exact (ihn hs.1 ho.1).comp (ihns hs.2 ho.2)
lemma mirrors (hp:inp.pos ≤ inp.data.size)(n:Node)(hs:n.simple=true)(ho:n.InOrder):
 Mirrors f inp (n.Spans (look f inp) f.backwards) (along f (n.Occurs (inp.text f))):=
 n.faithful_mirrors hp (n.simple_opens _ hs).2.1 ho
lemma mirrorsList (hp:inp.pos ≤ inp.data.size)(ns:List Node)(hs:simpleList ns=true)(ho:InOrderList ns):
 Mirrors f inp (SpansList (look f inp) f.backwards ns) (along f (OccursList (inp.text f) ns)):=by
 cases ns with
 | nil=>
  rw[OccursList,along_eq]
  exact .eq
 | cons n ns=>exact mirrors hp (.cat (n::ns)) hs ho
mutual
/-- From the leaf of the anchor `k` on to where the pattern ends: forwards from before the character of the leaf to
the end, backwards from there to the start. -/
def Onward (x:Text)(back:Bool)(k:Nat):Nat→Node→Nat→Nat→Prop
 | anchor,.cat parts=>OnwardList x back k anchor parts
 | anchor,.alt l r=>
  if k<anchor+l.anchors then Onward x back k anchor l
  else Onward x back k (anchor+l.anchors) r
 | anchor,.star _ e | anchor,.plus _ e=>
  Comp (Onward x back k anchor e) (ReflTransGen (if back then flip (e.Occurs x) else e.Occurs x))
 | anchor,n=>fun s e=>n.anchors=1∧k=anchor∧if back then s=e else x.Takes n s e
def OnwardList (x:Text)(back:Bool)(k:Nat):Nat→List Node→Nat→Nat→Prop
 | _,[]=>fun _ _=>False
 | anchor,n::ns=>
  if back then
   if k<anchor+n.anchors then Onward x back k anchor n
   else Comp (OnwardList x back k (anchor+n.anchors) ns) (flip (n.Occurs x))
  else
   if k<anchor+n.anchors then Comp (Onward x back k anchor n) (OccursList x ns)
   else OnwardList x back k (anchor+n.anchors) ns
end
lemma IsLeaf.onward_eq {n:Node}(hn:n.IsLeaf)(x:Text)(back:Bool)(k anchor:Nat):
 n.Onward x back k anchor=fun s e=>
  n.anchors=1∧k=anchor∧if back then s=e else x.Takes n s e:=by
 cases n<;>first | rfl | exact hn.elim
lemma IsLeaf.occurs_of_anchor {n:Node}(hn:n.IsLeaf)(h:n.anchors=1)(x:Text):n.Occurs x=x.Takes n:=by
 cases n<;>first | rfl | exact hn.elim | cases h

/-- What lies before the character of a leaf and what lies behind it make a piece that the pattern
matches. -/
lemma occurs_of_onward {x:Text}(n:Node):n.simple=true→∀anchor m s e,
 n.Onward x true k anchor m s→n.Onward x false k anchor m e→n.Occurs x s e:=by
 induction n using induction (Q:=fun ns=>simpleList ns=true→∀anchor m s e,
  OnwardList x true k anchor ns m s→OnwardList x false k anchor ns m e→
   OccursList x ns s e) with
 | leaf n hn=>
  intro _ anchor m s e hs he
  rw[hn.onward_eq]at hs he
  obtain⟨ho,-,rfl⟩:=hs
  rw[hn.occurs_of_anchor ho]
  exact he.2.2
 | cat pr ih=>
  intro h
  rw[simple,and_eq_true]at h
  exact ih h.2
 | alt l r ihl ihr=>
  intro h anchor m s e hs he
  rw[simple,and_eq_true]at h
  rw[Onward]at hs he
  split at hs
  ·rename_i hk
   rw[if_pos hk]at he
   exact .inl (ihl h.1 _ _ _ _ hs he)
  ·rename_i hk
   rw[if_neg hk]at he
   exact .inr (ihr h.2 _ _ _ _ hs he)
 | star g e ih=>
  rintro h anchor m s t ⟨s',hs,hss⟩ ⟨t',ht,htt⟩
  exact (Relation.reflTransGen_swap.mp hss).trans (.head (ih h _ _ _ _ hs ht) htt)
 | plus g e ih=>
  rintro h anchor m s t ⟨s',hs,hss⟩ ⟨t',ht,htt⟩
  have hsw:=reflTransGen_comp_times (R:=e.Occurs x) 1
  rw[times_one]at hsw
  obtain⟨u,hu,hr⟩:=(congrFun₂ hsw s t').mp
   ⟨s',Relation.reflTransGen_swap.mp hss,ih h _ _ _ _ hs ht⟩
  exact⟨u,hu,hr.trans htt⟩
 | range=>nofun
 | nil _ _ _ _ _ h=>exact h.elim
 | cons n ns ihn ihns h anchor m s e hs he=>
  rw[simpleList,and_eq_true]at h
  rw[OnwardList]at hs he
  simp only[if_true,false_eq_true,if_false]at hs he
  split at hs
  ·rename_i hk
   rw[if_pos hk]at he
   obtain⟨u,hu,hr⟩:=he
   exact⟨u,ihn h.1 _ _ _ _ hs hu,hr⟩
  ·rename_i hk
   rw[if_neg hk]at he
   obtain⟨u,hu,hst⟩:=hs
   exact⟨u,hst,ihns h.2 _ _ _ _ hu he⟩
lemma seat_isSome_iff (n:Node):n.simple=true→∀anchor a,
 (n.seat back anchor a k).isSome=true↔anchor≤k∧k<anchor+n.anchors:=by
 induction n using induction (Q:=fun ns=>simpleList ns=true→∀anchor a,
  (seatList back ns anchor a k).isSome=true↔anchor≤k∧k<anchor+anchorsList ns) with
 | leaf n hn=>
  intro _ anchor a
  have hle:=hn.anchors_le
  rw[hn.seat_eq]
  grind
 | cat pr ih=>
  intro h
  rw[simple,and_eq_true]at h
  exact ih h.2
 | alt l r ihl ihr=>
  intro h anchor a
  rw[simple,and_eq_true]at h
  rw[seat,isSome_or,Bool.or_eq_true,ihl h.1,ihr h.2,anchors]
  omega
 | star g e ih=>exact fun h anchor a=>ih h anchor (a+4)
 | plus g e ih=>exact fun h anchor a=>ih h anchor a
 | range=>rintro⟨⟩
 | nil _ anchor a=>
  simp only[seatList,isSome_none,anchorsList,false_eq_true,false_iff]
  omega
 | cons n ns ihn ihns h anchor a=>
  rw[simpleList,and_eq_true]at h
  rw[seatList,anchorsList]
  split<;>rw[isSome_or,Bool.or_eq_true,ihn h.1,ihns h.2]<;>omega
lemma seatList_isSome_iff (ns:List Node)(hs:simpleList ns=true)(anchor a:Nat):
 (seatList back ns anchor a k).isSome=true↔anchor≤k∧k<anchor+anchorsList ns:=by
 cases ns with
 | nil=>
  simp only[seatList,isSome_none,anchorsList,false_eq_true,false_iff]
  omega
 | cons n ns=>exact seat_isSome_iff back (.cat (n::ns)) hs anchor a

/-- From the entry of an anchor, a run goes through just what lies between the leaf and the end of the pattern. -/
lemma seat_mirrors (hp:inp.pos ≤ inp.data.size)(n:Node):n.simple=true→
 n.InOrder→∀anchor a,n.seat f.backwards anchor a k=some y→
 ∃L,n.Entry (look f inp) f.backwards a y L∧
  Mirrors f inp L (n.Onward (inp.text f) f.backwards k anchor):=by
 induction n using induction (Q:=fun ns=>simpleList ns=true→InOrderList ns→
  ∀anchor a,seatList f.backwards ns anchor a k=some y→
  ∃L,EntryList (look f inp) f.backwards ns a y L∧
   Mirrors f inp L (OnwardList (inp.text f) f.backwards k anchor ns)) with
 | leaf n hn=>
  intro hs ho anchor a hy
  rw[hn.seat_eq]at hy
  split at hy
  ·rename_i hon
   have honw:n.Onward (inp.text f) f.backwards k anchor=fun s e=>
    if f.backwards then s=e else (inp.text f).Takes n s e:=by
    rw[hn.onward_eq]
    simp only[hon.1,hon.2,true_and]
   have hm:=hn.mirrors (n.simple_opens f.backwards hs).2.1 ho hp f.backwards
   rw[hn.occurs_of_anchor hon.1]at hm
   rw[honw]
   cases hb:f.backwards with
   | true=>
    rw[hb]at hy
    simp only[some.injEq]at hy⊢
    subst hy
    exact⟨Eq,.stop a hn,.eq⟩
   | false=>
    rw[hb]at hy hm
    simp only[some.injEq]at hy⊢
    subst hy
    rw[along,hb]at hm
    exact⟨_,.start n a,hm⟩
  ·cases hy
 | cat pr ih=>
  intro hs ho anchor a hy
  rw[simple,and_eq_true]at hs
  obtain⟨L,he,hm⟩:=ih hs.2 ho anchor a hy
  exact⟨L,.cat he,hm⟩
 | alt l r ihl ihr=>
  intro hs ho anchor a hy
  rw[simple,and_eq_true]at hs
  rw[seat,or_eq_some_iff]at hy
  rw[Onward]
  rcases hy with hy|⟨-,hy⟩
  ·have hk:=(r.seat_isSome_iff f.backwards hs.2 _ _).1 (isSome_of_eq_some hy)
   obtain⟨L,he,hm⟩:=ihr hs.2 ho.2 _ _ hy
   rw[if_neg (by omega)]
   exact⟨L,.right he,hm⟩
  ·have hk:=(l.seat_isSome_iff f.backwards hs.1 _ _).1 (isSome_of_eq_some hy)
   obtain⟨L,he,hm⟩:=ihl hs.1 ho.1 _ _ hy
   rw[if_pos hk.2]
   exact⟨L,.left he,hm⟩
 | star g e ih=>
  intro hs ho anchor a hy
  obtain⟨L,he,hm⟩:=ih hs ho anchor _ hy
  exact⟨_,.star he,hm.comp (e.mirrors hp hs ho).reflTransGen⟩
 | plus g e ih=>
  intro hs ho anchor a hy
  obtain⟨L,he,hm⟩:=ih hs ho anchor _ hy
  refine⟨_,.plus he,?_⟩
  rw[e.again_eq_spans _ _ (e.simple_opens _ hs).1]
  exact hm.comp (e.mirrors hp hs ho).reflTransGen
 | range=>rintro⟨⟩
 | nil _ _ _ _ hy=>cases hy
 | cons n ns ihn ihns hs ho anchor a hy=>
  rw[simpleList,and_eq_true]at hs
  have hh:∀a,n.seat f.backwards anchor a k=some y→k<anchor+n.anchors:=
   fun a h=>((n.seat_isSome_iff _ hs.1 anchor a).1 (isSome_of_eq_some h)).2
  have ht:∀a,seatList f.backwards ns (anchor+n.anchors) a k=some y→¬k<anchor+n.anchors:=by
   intro a h
   have:=(seatList_isSome_iff _ ns hs.2 (anchor+n.anchors) a).1 (isSome_of_eq_some h)
   omega
  have hbo:=n.mirrors hp hs.1 ho.1 (f:=f)
  have hr:=mirrorsList hp ns hs.2 ho.2 (f:=f)
  have ihn:=ihn hs.1 ho.1 anchor
  have ihns:=ihns hs.2 ho.2 (anchor+n.anchors)
  rw[seatList]at hy
  rw[OnwardList]
  unfold along at hbo hr
  cases hb:f.backwards with
  | true=>
   simp only[hb,if_true,or_eq_some_iff]at hy hh ht ihn ihns hbo hr⊢
   rcases hy with hy|⟨-,hy⟩
   ·obtain⟨L,he,hm⟩:=ihn _ hy
    rw[if_pos (hh _ hy)]
    exact⟨L,.head_backwards he,hm⟩
   ·obtain⟨L,he,hm⟩:=ihns _ hy
    rw[if_neg (ht _ hy)]
    exact⟨_,.tail_backwards he,hm.comp hbo⟩
  | false=>
   simp only[hb,false_eq_true,if_false,or_eq_some_iff]at hy hh ht ihn ihns hbo hr⊢
   rcases hy with hy|⟨-,hy⟩
   ·obtain⟨L,he,hm⟩:=ihns _ hy
    rw[if_neg (ht _ hy)]
    exact⟨L,.tail_forwards he,hm⟩
   ·obtain⟨L,he,hm⟩:=ihn _ hy
    rw[if_pos (hh _ hy)]
    exact⟨_,.head_forwards he,hm.comp hr⟩
end Node
end
/-- A derivation of a piece of a text: from each character that carries an anchor, the rest is gone through in both
directions. -/
structure Text.Derived (x:Text)(D:Derivation→Prop)(O:Bool→Nat→Nat→Nat→Prop)
 (s e:Nat)(d:Derivation):Prop where
 derives:D d
 word:d.word <+: x.data.list.drop s
 length:s+d.length=e
 onward:∀pos b k,d[pos]?=some (b,some k)→O true k (s+pos) s∧O false k (s+pos) e
lemma Derivation.word_append_prefix {b:Bytes}{d d':Derivation}
 (h:d.word <+: b.list.drop s)(h':d'.word <+: b.list.drop (s+d.length)):
 (d++d').word <+: b.list.drop s:=by
 obtain⟨t,ht⟩:=h
 have hl:d.word.length=d.length:=length_map _
 rw[←drop_drop,←ht,drop_left' hl]at h'
 rw[←ht,word,map_append]
 exact (prefix_append_right_inj _).2 h'
namespace Node
lemma Derives.anchor_lt {c:Comparison}{n:Node}{d:Derivation}
 (h:n.Derives c anchor d)(hp:d[pos]?=some (b,some k)):
 anchor≤k∧k<anchor+n.anchors:=by
 obtain⟨leaf,⟨hle,hl⟩,-⟩:=h.anchorAt _ _ _ b k (mem_of_getElem? hp)
 have hlt:=(List.getElem?_eq_some_iff.1 hl).1
 rw[length_leaves]at hlt
 omega
lemma DerivesList.anchor_le {c:Comparison}{ns:List Node}{d:Derivation}
 (h:DerivesList c anchor ns d)
 (hp:d[pos]?=some (b,some k)):anchor≤k:=
 (Derives.anchor_lt (n:=.cat ns) h hp).1
section
variable {x:Text}(hx:x.wide=false)
include hx
variable {g:Bool}{n:Node}
lemma Takes.word (h:x.Takes n s e):e=s+1∧s<x.data.size∧n.takes x.comparison (x.data.byteAt s)=true:=by
 obtain⟨he,⟨hs,-⟩,ht⟩:=h
 have hw:x.width=1:=by
  unfold Text.width
  rw[hx]
  rfl
 grind
lemma IsCharacter.derived (hn:n.IsCharacter)(anchor:Nat)(h:x.Takes n s e):
 ∃d,x.Derived (n.Derives x.comparison anchor) (fun b k=>n.Onward x b k anchor) s e d:=by
 obtain⟨rfl,hlt,ht⟩:=Takes.word hx h
 have hl:n.IsLeaf:=by cases n<;>first | exact hn.elim | trivial
 refine⟨[(x.data.byteAt s,if n.anchors=1 then some anchor else none)],?_,?_,rfl,?_⟩
 ·cases n<;>first | exact hn.elim | exact⟨_,ht,rfl⟩
 ·rw[x.data.drop_list hlt]
  exact (prefix_append [x.data.byteAt s] _)
 intro pos b k hp
 obtain⟨rfl,hb⟩:pos=0∧(x.data.byteAt s,if n.anchors=1 then some anchor else none)=(b,some k):=by grind
 have ho:n.anchors=1∧k=anchor:=by grind
 simp only[hl.onward_eq]
 exact⟨⟨ho.1,ho.2,rfl⟩,ho.1,ho.2,h⟩
lemma times_any_derives (m:Nat):∀s e,Times (x.Takes .any) m s e→
 ∃d:Derivation,d.length=m∧(∀y∈d,Node.any.takes x.comparison y.1=true∧y.2=none)∧
  d.word <+: x.data.list.drop s∧s+m=e:=by
 induction m with
 | zero=>
  rintro s e rfl
  exact⟨[],rfl,nofun, nil_prefix,rfl⟩
 | succ m ih=>
  rintro s e ⟨u,hu,h⟩
  obtain⟨rfl,hlt,ht⟩:=Takes.word hx hu
  obtain⟨d,hd,ha,hw,rfl⟩:=ih _ _ h
  refine⟨(x.data.byteAt s,none)::d,by rw[length_cons,hd],?_,?_,by omega⟩
  ·grind
  ·rw[x.data.drop_list hlt]
   exact cons_prefix_cons.2 ⟨rfl,hw⟩
lemma IsLeaf.derived (hn:n.IsLeaf)(hs:n.simple=true)(anchor:Nat){s e:Nat}(h:n.Occurs x s e):
 ∃d,x.Derived (n.Derives x.comparison anchor) (fun b k=>n.Onward x b k anchor) s e d:=by
 cases n with
 | gap lo hi g=>
  obtain⟨m,hlo,hhi,h⟩:=h
  obtain⟨d,rfl,ha,hw,hl⟩:=times_any_derives hx m s e h
  refine⟨d,⟨hlo,.inl hhi,ha⟩,hw,hl,fun pos b k hp=>?_⟩
  exact absurd (ha _ (mem_of_getElem? hp)).2 nofun
 | empty | start | stop | boundary | nonBoundary=>exact absurd hs nofun
 | cat | alt | star | plus | range=>exact hn.elim
 | _=>exact IsCharacter.derived hx (by trivial) anchor h
omit hx in
lemma derived_append {d d':Derivation}(hfs:n.Occurs x s m)(hr:ReflTransGen (n.Occurs x) m e)
 (h:x.Derived (n.Derives x.comparison anchor) (fun b k=>n.Onward x b k anchor) s m d)
 (h':x.Derived ((star g n).Derives x.comparison anchor)
  (fun b k=>(star g n).Onward x b k anchor) m e d'):
 x.Derived ((plus g n).Derives x.comparison anchor)
  (fun b k=>(plus g n).Onward x b k anchor) s e (d++d'):=by
 obtain⟨ds,hds,rfl⟩:=h'.derives
 obtain rfl:=h.length
 refine⟨⟨d::ds,nofun,forall_mem_cons.2 ⟨h.derives,hds⟩,rfl⟩,?_,?_,?_⟩
 ·exact word_append_prefix h.word h'.word
 ·have:=h'.length
  rw[length_append]
  omega
 intro pos b k hp
 by_cases hlt:pos<d.length
 ·rw[getElem?_append_left hlt]at hp
  obtain⟨hb,hf⟩:=h.onward pos b k hp
  exact⟨⟨s,hb,.refl⟩,_,hf,hr⟩
 ·rw[getElem?_append_right (by omega)]at hp
  obtain⟨hb,hf⟩:=h'.onward _ b k hp
  rw[show s+d.length+(pos-d.length)=s+pos by omega]at hb hf
  obtain⟨u,hu,hb⟩:=hb
  exact⟨⟨u,hu,hb.tail hfs⟩,hf⟩
omit hx in
lemma derived_star {d:Derivation}(h:x.Derived ((plus g n).Derives x.comparison anchor)
  (fun b k=>(plus g n).Onward x b k anchor) s e d):
 x.Derived ((star g n).Derives x.comparison anchor) (fun b k=>(star g n).Onward x b k anchor) s e d:=by
 obtain⟨ds,-,hds,rfl⟩:=h.derives
 exact⟨⟨ds,hds,rfl⟩,h.word,h.length,h.onward⟩
omit hx in
lemma derived_rounds (hn:∀s e,n.Occurs x s e→∃d,x.Derived (n.Derives x.comparison anchor)
  (fun b k=>n.Onward x b k anchor) s e d)(h:ReflTransGen (n.Occurs x) s e):
 ∃d,x.Derived ((star g n).Derives x.comparison anchor)
  (fun b k=>(star g n).Onward x b k anchor) s e d:=by
 induction h using ReflTransGen.head_induction_on with
 | refl=>exact⟨[],⟨[],nofun,rfl⟩, nil_prefix,rfl,nofun⟩
 | head hf hr ih=>
  obtain⟨d,hd⟩:=hn _ _ hf
  obtain⟨d',hd'⟩:=ih
  exact⟨d++d',derived_star (derived_append hf hr hd hd')⟩
lemma Occurs.derived (n:Node):n.simple=true→∀anchor s e,n.Occurs x s e→
 ∃d,x.Derived (n.Derives x.comparison anchor) (fun b k=>n.Onward x b k anchor) s e d:=by
 induction n using induction (Q:=fun ns=>simpleList ns=true→∀anchor s e,
  OccursList x ns s e→∃d,x.Derived (DerivesList x.comparison anchor ns)
   (fun b k=>OnwardList x b k anchor ns) s e d) with
 | leaf n hn=>exact fun hs anchor s e h=>hn.derived hx hs anchor h
 | cat pr ih=>
  intro hs
  rw[simple,and_eq_true]at hs
  exact ih hs.2
 | alt l r ihl ihr=>
  intro hs anchor s e h
  rw[simple,and_eq_true]at hs
  rcases h with h|h
  ·obtain⟨d,hd⟩:=ihl hs.1 anchor s e h
   refine⟨d,.inl hd.derives,hd.word,hd.length,fun pos b k hp=>?_⟩
   simp only[Onward,if_pos (hd.derives.anchor_lt hp).2]
   exact hd.onward pos b k hp
  ·obtain⟨d,hd⟩:=ihr hs.2 (anchor+l.anchors) s e h
   refine⟨d,.inr hd.derives,hd.word,hd.length,fun pos b k hp=>?_⟩
   simp only[Onward,if_neg (not_lt.2 (hd.derives.anchor_lt hp).1)]
   exact hd.onward pos b k hp
 | star g n ih=>exact fun hs anchor s e h=>derived_rounds (fun s e h=>ih hs anchor s e h) h
 | plus g n ih=>
  rintro hs anchor s e ⟨m,hfs,hr⟩
  obtain⟨d,hd⟩:=ih hs anchor s m hfs
  obtain⟨d',hd'⟩:=derived_rounds (fun s e h=>ih hs anchor s e h) hr
  exact⟨d++d',derived_append hfs hr hd hd'⟩
 | range=>nofun
 | nil _ anchor s e h=>exact⟨[],rfl, nil_prefix,h,nofun⟩
 | cons n ns ihn ihns hs anchor s e h=>
  rw[simpleList,and_eq_true]at hs
  obtain⟨m,hfs,hr⟩:=h
  obtain⟨d,hd⟩:=ihn hs.1 anchor s m hfs
  obtain⟨d',hd'⟩:=ihns hs.2 (anchor+n.anchors) m e hr
  obtain rfl:=hd.length
  refine⟨d++d',⟨d,d',hd.derives,hd'.derives,rfl⟩, word_append_prefix hd.word hd'.word,?_,fun pos b k hp=>?_⟩
  ·have:=hd'.length
   rw[length_append]
   omega
  simp only[OnwardList,if_true,false_eq_true,if_false]
  by_cases hlt:pos<d.length
  ·rw[getElem?_append_left hlt]at hp
   obtain⟨hb,hf⟩:=hd.onward pos b k hp
   have hk:=(hd.derives.anchor_lt hp).2
   rw[if_pos hk,if_pos hk]
   exact⟨hb,_,hf,hr⟩
  rw[getElem?_append_right (by omega)]at hp
  obtain⟨hb,hf⟩:=hd'.onward _ b k hp
  rw[show s+d.length+(pos-d.length)=s+pos by omega]at hb hf
  have hk:=not_lt.2 (hd'.derives.anchor_le hp)
  rw[if_neg hk,if_neg hk]
  exact⟨⟨_,hb,hfs⟩,hf⟩
end
end Node
section
variable {p:Pattern}{a:Nat}{c:Code}{f:RunFlags}{inp:Input}{L:Nat→Nat→Prop}
lemma Input.place_zero:inp.place f 0=inp.pos:=by
 unfold place
 simp
def Input.away (f:RunFlags)(inp:Input)(n:Nat):Nat:=
 if f.backwards then inp.pos-n else inp.pos+n

/-- A run reports distances to places that a relation leads to: some if there are any within its reach, and all if it
is exhaustive. -/
structure Reports (r:Run)(f:RunFlags)(inp:Input)(T:Nat→Nat→Prop):Prop where
 sound:∀n∈r.lengths,(f.backwards=true→n ≤ inp.pos)∧T inp.pos (inp.away f n)
 some:∀e,inp.Near f e→T inp.pos e → r.lengths≠#[]
 all:f.exhaustive=true→∀e,inp.Near f e→T inp.pos e→∃n∈r.lengths,e=inp.away f n
lemma Mirrors.reports (hm:Mirrors f inp L T)(hp:inp.pos ≤ inp.data.size){r:Run}
 (hsn:∀n∈r.lengths,∃j,L 0 j∧n=j*width f)
 (hs:∀j,L 0 j → r.lengths≠#[])
 (ha:f.exhaustive=true→∀j,L 0 j→j*width f∈r.lengths):
 Reports r f inp T:=by
 have hz:0*width f≤reach f inp:=by simp
 have hc:∀e,inp.Near f e→T inp.pos e→∃j,e=inp.away f (j*width f)∧L 0 j:=by
  intro e he hT
  rw[←place_zero]at hT
  obtain⟨j,-,hj,hL⟩:=hm.covers 0 e hz he hT
  exact⟨j,hj,hL⟩
 refine⟨fun n hn=>?_,fun e he hT=>?_,fun hex e he hT=>?_⟩
 ·obtain⟨j,hL,rfl⟩:=hsn n hn
  obtain⟨hj,hT⟩:=hm.traces 0 j hz hL
  rw[place_zero]at hT
  refine⟨fun hb=>?_,hT⟩
  have:=place_le hp hj
  rwa[if_pos hb]at this
 ·obtain⟨j,-,hL⟩:=hc e he hT
  exact hs j hL
 ·obtain⟨j,hj,hL⟩:=hc e he hT
  exact⟨_,ha hex j hL,hj⟩
lemma Pattern.Stands.steady_of_simple {back:Bool}(hp:p.Stands back a c)(hs:p.root.simple=true)
 (he:p.root.Entry (look f inp) back a y L):Steady c f inp y:=
 hp.steady (p.root.simple_steady back hs) he (hp.firm (p.root.simple_opens back hs).2.2 he)
lemma Pattern.Stands.reports (hp:p.Stands f.backwards a c)
 (he:p.root.Entry (look f inp) f.backwards a y L)(hm:Mirrors f inp L T)
 (hst:Steady c f inp y)(hs:f.search=false)
 (hpo:inp.pos ≤ inp.data.size)(hok:(run c y f inp).result=.ok ()):
 Reports (run c y f inp) f inp T:=by
 have hsta:∀i,Starts f inp i→i=0:=
  fun i hi=>hi.resolve_right fun h=>Bool.false_ne_true (hs.symm.trans h.1)
 refine hm.reports hpo (fun n hn=>?_) (fun j hL=>?_) fun hex j hL=>?_
 ·obtain⟨i,j,hi,hL,hn⟩:=(hp.found_iff he n).1 (found_of_mem_run hst.firm hn)
  grind
 ·exact (hp.run_ne_empty_iff he hst hok).2 ⟨0,j,.inl rfl,hL⟩
 ·exact (hp.mem_run_iff he hst hok hex _).2 ⟨0,j,.inl rfl,hL,rfl⟩
end
end Regex
end PatternScan