import Mathlib
import PatternScan.Regex.Code
/-! The instructions of a pattern stand one after the other, so their addresses follow from the tree. -/
open Array
namespace PatternScan.Regex
open Nat Inst
namespace Code
lemma fold_push_size (n:Nat)(s:Array Inst):(n.fold (fun _ _ s=>s.push filler) s).size=s.size+n:=by
 induction n with
 | zero=>rfl
 | succ n _=>
  rw[fold_succ,Array.size_push]
  omega
lemma fold_push_getElem? (n:Nat)(s:Array Inst)(x:Nat)(h:x<s.size):
 (n.fold (fun _ _ s=>s.push filler) s)[x]?=s[x]?:=by
 induction n with
 | zero=>rfl
 | succ n ih=>
  rw[fold_succ,getElem?_push,ih,if_neg]
  rw[fold_push_size]
  omega
lemma fold_push_getElem?_of_le (n:Nat)(s:Array Inst)(x:Nat)(h:s.size≤x):
 (n.fold (fun _ _ s=>s.push filler) s)[x]?=none∨
  (n.fold (fun _ _ s=>s.push filler) s)[x]?=some .filler:=by
 induction n with
 | zero=>exact Or.inl (getElem?_eq_none h)
 | succ n ih=>
  rw[fold_succ,getElem?_push]
  split
  ·exact Or.inr rfl
  ·exact ih
lemma fetch_eq (c:Code)(x:Nat):c.fetch x=(c.slots[x]?).getD .filler:=by
 rw[fetch]
 grind
lemma fetch_of_size_le (c:Code)(x:Nat)(h:c.size≤x):c.fetch x=.filler:=
 dif_neg (not_lt.2 h)
end Code
def Inst.isTest:Inst→Bool
 | .atStart | .atEnd | .boundary | .nonBoundary=>true
 | _=>false
lemma Inst.size_pos (i:Inst):0 < i.size:=by cases i<;>exact succ_pos _
namespace Code
section
variable (c:Code)(i:Inst)
include c i
lemma size_push:(c.push i).size=c.size+i.size:=by
 have:=i.size_pos
 rw[push,size,fold_push_size,Array.size_push,size]
 omega
lemma fetch_push_of_lt (x:Nat)(h:x<c.size):(c.push i).fetch x=c.fetch x:=by
 have hx:x<(c.slots.push i).size:=by
  rw[Array.size_push]
  exact lt_succ_of_lt h
 have hne:x≠c.slots.size:=Nat.ne_of_lt h
 rw[fetch_eq,fetch_eq,push,fold_push_getElem? _ _ _ hx,getElem?_push,if_neg hne]
lemma fetch_push_size:(c.push i).fetch c.size=i:=by
 rw[fetch_eq,push,fold_push_getElem? _ _ _ (by rw[Array.size_push];exact lt_succ_self _),
  size,getElem?_push_size]
 rfl
lemma fetch_push_of_gt (x:Nat)(h:c.size<x):(c.push i).fetch x=.filler:=by
 rw[fetch_eq,push]
 rcases fold_push_getElem?_of_le (i.size-1) (c.slots.push i) x
  (by rw[Array.size_push];exact h) with hx | hx<;>rw[hx]<;>rfl
end
lemma size_patch (c:Code)(a:Nat)(i:Inst):(c.patch a i).size=c.size:=
 size_setIfInBounds
lemma fetch_patch (c:Code)(a:Nat)(i:Inst)(x:Nat):
 (c.patch a i).fetch x=if x=a∧a<c.size then i else c.fetch x:=by
 rw[fetch_eq,fetch_eq,patch,getElem?_setIfInBounds]
 by_cases hx:a=x
 ·subst hx
  by_cases ha:a<c.slots.size
  ·simp[ha,size]
  ·simp[ha,size]
 ·simp[hx,Ne.symm hx]
end Code
namespace Node
open Emission (leaf?)
variable (c:Code)(back:Bool)(a:Nat)
def IsLeaf:Node→Prop
 | .cat _ | .alt _ _ | .star _ _ | .plus _ _ | .range _ _ _ _=>False
 | _=>True
lemma induction {P:Node→Prop}{Q:List Node→Prop}(leaf:∀n:Node,n.IsLeaf→P n)(cat:∀p,Q p→P (.cat p))
 (alt:∀l r,P l→P r→P (.alt l r))(star:∀g e,P e→P (.star g e))
 (plus:∀g e,P e→P (.plus g e))(range:∀lo hi g e,P e→P (.range lo hi g e))
 (nil:Q [])(cons:∀n ns,P n→Q ns→Q (n::ns))(n:Node):P n:=
 @Node.rec P Q (fun _ _=>leaf _ trivial) (fun _=>leaf _ trivial) (fun _ _=>leaf _ trivial)
  (fun _ _=>leaf _ trivial) (leaf _ trivial) (leaf _ trivial) (leaf _ trivial)
  (leaf _ trivial) (leaf _ trivial) (leaf _ trivial) (leaf _ trivial) (fun _=>leaf _ trivial)
  (leaf _ trivial) (leaf _ trivial) (leaf _ trivial) (leaf _ trivial) (leaf _ trivial)
  (fun _ _ _=>leaf _ trivial) cat alt star plus range nil cons n
mutual
def codeSize:Node→Nat
 | .cat parts=>codeSizeList parts
 | .plus _ e=>e.codeSize+4
 | .star _ e=>e.codeSize+7
 | .alt l r=>l.codeSize+r.codeSize+7
 | .range lo hi _ e=>
  (if lo>0 then e.codeSize else 0)+(if hasLoop lo hi then e.codeSize+18 else 0) +
   (if hi>lo then 4 else 0)+(if hasEpilog lo hi then e.codeSize else 0)
 | n=>((leaf? n).map Inst.size).getD 0
def codeSizeList:List Node→Nat
 | []=>0
 | n::ns=>n.codeSize+codeSizeList ns
end
mutual
def unbranched:Node→Bool
 | .cat parts=>unbranchedList parts
 | .alt _ _ | .star _ _ | .plus _ _=>false
 | .range lo hi _ e=>hi≤lo&&e.unbranched
 | _=>true
def unbranchedList:List Node→Bool
 | []=>true
 | n::ns=>n.unbranched&&unbranchedList ns
end
def loopAt (lo:Nat)(e:Node)(a:Nat):Nat:=a+if lo>0 then e.codeSize else 0
def branchAt (lo hi:Nat)(e:Node)(a:Nat):Nat:=
 loopAt lo e a+if hasLoop lo hi then e.codeSize+18 else 0
def epilogAt (lo hi:Nat)(e:Node)(a:Nat):Nat:=
 branchAt lo hi e a+if hi>lo then 4 else 0
mutual
/-- The address that counts as the first one of a pattern laid at an address. -/
def first (back:Bool):Node→Nat→Option Nat
 | .cat parts,a=>firstList back parts a
 | .plus _ e,a=>e.first back a
 | .star _ _,a | .alt _ _,a=>some a
 | .range lo hi _ e,a=>
  if lo>0 then e.first back a
  else if hasLoop lo hi then some a
  else if hasEpilog lo hi then e.first back (epilogAt lo hi e a)
  else none
 | n,a=>(leaf? n).map fun _=>a
def firstList (back:Bool):List Node→Nat→Option Nat
 | [],_=>none
 | n::ns,a=>
  if back then
   if ns.isEmpty then n.first back a else firstList back ns a
  else n.first back a
end
mutual
def weight:Node→Nat
 | .start | .stop | .boundary | .nonBoundary=>1
 | .cat parts=>weightList parts
 | .alt l r=>l.weight+r.weight
 | .star _ e | .plus _ e=>e.weight
 | .range lo hi _ e=>(lo+hi+3)*e.weight
 | _=>0
def weightList:List Node→Nat
 | []=>0
 | n::ns=>n.weight+weightList ns
end
def backDistance (here:Nat):Option Nat→Int
 | some t=>(t:Int)-here
 | none=>-(here:Int)-1
mutual
def Laid (c:Code)(back:Bool):Node→Nat→Prop
 | .cat parts,a=>LaidList c back parts a
 | .plus greedy e,a=>
  e.Laid c back a∧∃id,c.fetch (a+e.codeSize)=.split (!greedy) id (backDistance (a+e.codeSize) (e.first back a))
 | .star greedy e,a=>
  (∃id,c.fetch a=.split greedy id (e.codeSize+7))∧e.Laid c back (a+4)∧
   c.fetch (a+4+e.codeSize)=.jump (-(e.codeSize:Int)-4)
 | .alt l r,a=>
  (∃id,c.fetch a=.split true id (l.codeSize+7))∧l.Laid c back (a+4)∧
   c.fetch (a+4+l.codeSize)=.jump (r.codeSize+3)∧
   r.Laid c back (a+4+l.codeSize+3)
 | .range lo hi greedy e,a=>
  (lo>0→e.Laid c back a)∧
  (hasLoop lo hi=true→c.fetch (loopAt lo e a)=
    .repeatStart greedy (loopLow lo hi) (loopHigh lo hi) (e.codeSize+18)∧
   e.Laid c back (loopAt lo e a+9)∧
   c.fetch (loopAt lo e a+9+e.codeSize)=.repeatEnd greedy (loopLow lo hi) (loopHigh lo hi) (-(e.codeSize:Int)))∧
  (hi>lo→∃id,c.fetch (branchAt lo hi e a)=.split greedy id (e.codeSize+4))∧
  (hasEpilog lo hi=true→e.Laid c back (epilogAt lo hi e a))
 | n,a=>∀i,leaf? n=some i→c.fetch a=i
def LaidList (c:Code)(back:Bool):List Node→Nat→Prop
 | [],_=>True
 | n::ns,a=>
  if back then LaidList c back ns a∧n.Laid c back (a+codeSizeList ns)
  else n.Laid c back a∧LaidList c back ns (a+n.codeSize)
end
mutual
/-- The address that the entry of an anchor refers to: forwards that of its code, back the one behind it. Of the
copies of a repetition's body one counts. -/
def seat (back:Bool):Node→(anchor a k:Nat)→Option Nat
 | .cat parts,anchor,a,k=>seatList back parts anchor a k
 | .plus _ e,anchor,a,k=>e.seat back anchor a k
 | .star _ e,anchor,a,k=>e.seat back anchor (a+4) k
 | .alt l r,anchor,a,k=>(r.seat back (anchor+l.anchors) (a+4+l.codeSize+3) k).or (l.seat back anchor (a+4) k)
 | .range lo hi _ e,anchor,a,k=>
  (if hasEpilog lo hi&&(back||lo==0) then
   e.seat back anchor (epilogAt lo hi e a) k else none).or
   (if lo>0 then e.seat back anchor a k else none)
 | n,anchor,a,k=>if n.anchors=1∧k=anchor then some (if back then a+n.codeSize else a) else none
def seatList (back:Bool):List Node→(anchor a k:Nat)→Option Nat
 | [],_,_,_=>none
 | n::ns,anchor,a,k=>
  if back then
   (n.seat back anchor (a+codeSizeList ns) k).or (seatList back ns (anchor+n.anchors) a k)
  else
   (seatList back ns (anchor+n.anchors) (a+n.codeSize) k).or (n.seat back anchor a k)
end
section
variable {n:Node}(hn:n.IsLeaf)
include hn
lemma IsLeaf.codeSize_eq:n.codeSize=((leaf? n).map Inst.size).getD 0:=by cases n<;>first | rfl | exact hn.elim
lemma IsLeaf.first_eq:n.first back a=(leaf? n).map fun _=>a:=by cases n<;>first | rfl | exact hn.elim
lemma IsLeaf.laid_iff:n.Laid c back a↔∀i,leaf? n=some i→c.fetch a=i:=by
 cases n<;>first | exact Iff.rfl | exact hn.elim
lemma IsLeaf.seat_eq (an a k:Nat):n.seat back an a k=if n.anchors=1∧k=an then
  some (if back then a+n.codeSize else a) else none:=by
 cases n<;>first | rfl | exact hn.elim
end
lemma epilogAt_add (lo hi:Nat)(g:Bool)(e:Node)(a:Nat):
 epilogAt lo hi e a+(if hasEpilog lo hi then e.codeSize else 0)=a+(range lo hi g e).codeSize:=by
 rw[codeSize,epilogAt,branchAt,loopAt]
 omega
lemma Laid.congr {c c':Code}{back:Bool}(n:Node):∀a,(∀x,a≤x→x<a+n.codeSize→
  (n.weight=0→(c.fetch x).isTest=false)→c'.fetch x=c.fetch x)→
 n.Laid c back a→n.Laid c' back a:=by
 induction n using induction (Q:=fun ns=>∀a,(∀x,a≤x→x<a+codeSizeList ns→
   (weightList ns=0→(c.fetch x).isTest=false)→c'.fetch x=c.fetch x)→
   LaidList c back ns a→LaidList c' back ns a) with
 | leaf n hn=>
  intro a h hl
  rw[hn.laid_iff]at hl⊢
  intro i hi
  have hsi:=hn.codeSize_eq
  rw[hi,Option.map_some,Option.getD_some]at hsi
  rw[h a le_rfl (by have:=i.size_pos;omega) ?_,hl i hi]
  rw[hl i hi]
  intro hw
  cases n<;>cases hi<;>first | rfl | cases hw
 | cat _ ih=>exact ih
 | alt l r ihl ihr=>
  intro a h hl
  rw[codeSize,weight]at h
  obtain⟨⟨id,h1⟩,h2,h3,h4⟩:=hl
  refine⟨⟨id,?_⟩,ihl _ ?_ h2,?_,ihr _ ?_ h4⟩
  ·rw[h a le_rfl (by omega) (by simp[h1,isTest]),h1]
  ·exact fun x _ _ hT=>h x (by omega) (by omega) fun hw=>hT (by omega)
  ·rw[h _ (by omega) (by omega) (by simp[h3,isTest]),h3]
  ·exact fun x _ _ hT=>h x (by omega) (by omega) fun hw=>hT (by omega)
 | star g e ih=>
  intro a h hl
  rw[codeSize,weight]at h
  obtain⟨⟨id,h1⟩,h2,h3⟩:=hl
  refine⟨⟨id,?_⟩,ih _ ?_ h2,?_⟩
  ·rw[h a le_rfl (by omega) (by simp[h1,isTest]),h1]
  ·exact fun x _ _=>h x (by omega) (by omega)
  ·rw[h _ (by omega) (by omega) (by simp[h3,isTest]),h3]
 | plus g e ih=>
  intro a h hl
  rw[codeSize,weight]at h
  obtain⟨h1,id,h2⟩:=hl
  refine⟨ih _ (fun x _ _=>h x (by omega) (by omega)) h1,id,?_⟩
  rw[h _ (by omega) (by omega) (by simp[h2,isTest]),h2]
 | range lo hi g e ih=>
  intro a h hl
  simp only[←epilogAt_add lo hi g e a,weight,mul_eq_zero,Nat.add_eq_zero_iff,OfNat.ofNat_ne_zero,and_false,false_or]at h
  obtain⟨h1,h2,h3,h4⟩:=hl
  have hb:epilogAt lo hi e a=branchAt lo hi e a+if hi>lo then 4 else 0:=rfl
  have hs:branchAt lo hi e a=loopAt lo e a+if hasLoop lo hi then e.codeSize+18 else 0:=rfl
  have ha:loopAt lo e a=a+if lo>0 then e.codeSize else 0:=rfl
  refine⟨fun hlo=>ih _ (fun x _ _=>h x (by omega) ?_) (h1 hlo),fun hlp=>?_,
   fun hhi=>?_,fun hep=>ih _ (fun x _ _=>h x (by omega) ?_) (h4 hep)⟩
  ·rw[if_pos hlo]at ha
   omega
  ·obtain⟨h5,h6,h7⟩:=h2 hlp
   rw[if_pos hlp]at hs
   refine⟨?_,ih _ (fun x _ _=>h x (by omega) (by omega)) h6,?_⟩
   ·rw[h _ (by omega) (by omega) (by simp[h5,isTest]),h5]
   ·rw[h _ (by omega) (by omega) (by simp[h7,isTest]),h7]
  ·obtain⟨id,h5⟩:=h3 hhi
   rw[if_pos hhi]at hb
   exact⟨id,by rw[h _ (by omega) (by omega) (by simp[h5,isTest]),h5]⟩
  ·rw[if_pos hep]
   assumption
 | nil=>exact trivial
 | cons n _ _ _ a h hl=>
  rw[codeSizeList,weightList]at h
  rw[LaidList]at hl⊢
  split at hl
  ·rename_i hb
   grind
  ·rename_i hb
   grind
end Node
end PatternScan.Regex