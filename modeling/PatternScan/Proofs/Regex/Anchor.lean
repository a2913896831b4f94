import PatternScan.Proofs.Regex.Derivation
import PatternScan.Proofs.Regex.Layout
/-! Anchors are numbered from left to right. -/
open List Option
namespace PatternScan.Regex.Node
open Emission (leaf?)
variable {leaf:Node}{n:Node}{anchor k:Nat}{c:Comparison}
mutual
def leaves:Node→List Node
 | .cat parts=>leavesList parts
 | .alt l r=>l.leaves++r.leaves
 | .star _ e | .plus _ e | .range _ _ _ e=>e.leaves
 | n=>if n.anchors=1 then [n] else []
def leavesList:List Node→List Node
 | []=>[]
 | n::ns=>n.leaves++leavesList ns
end
lemma IsLeaf.leaves_eq (hn:n.IsLeaf):n.leaves=if n.anchors=1 then [n] else []:=by
 cases n<;>first | rfl | exact hn.elim
lemma IsLeaf.anchors_le (hn:n.IsLeaf):n.anchors≤1:=by cases n<;>simp_all [IsLeaf,anchors]
lemma length_leaves (n:Node):n.leaves.length=n.anchors:=by
 induction n using induction (Q:=fun ns=>(leavesList ns).length=anchorsList ns) with
 | leaf n hn=>
  have:=hn.anchors_le
  rw[hn.leaves_eq]
  split
  ·simp_all
  ·simp
   omega
 | cat _ ih=>exact ih
 | alt l r ihl ihr=>rw[leaves,length_append,ihl,ihr,anchors]
 | star g e ih=>exact ih
 | plus g e ih=>exact ih
 | range _ _ g e ih=>exact ih
 | nil=>rfl
 | cons n _ ihn ihns=>rw[leavesList,length_append,ihn,ihns,anchorsList]
def AnchorAt (leaves:List Node)(anchor k:Nat)(leaf:Node):Prop:=
 anchor≤k∧leaves[k-anchor]?=some leaf
lemma AnchorAt.append_left {l:List Node}
 (h:AnchorAt l anchor k leaf)(r:List Node):AnchorAt (l++r) anchor k leaf:=
 ⟨h.1,by rw[getElem?_append_left (List.getElem?_eq_some_iff.1 h.2).1,h.2]⟩
lemma AnchorAt.append_right {r:List Node}(l:List Node)
 (h:AnchorAt r (anchor+l.length) k leaf):AnchorAt (l++r) anchor k leaf:=by
 have hk:=h.1
 refine⟨by omega,?_⟩
 rw[getElem?_append_right (by omega),←h.2]
 congr 1
 omega
lemma IsLeaf.derives (hn:n.IsLeaf){d:Derivation}(h:n.Derives c anchor d){b:UInt8}(hb:(b,some k)∈d):
 k=anchor∧n.anchors=1∧n.takes c b:=by
 cases n with
 | cat | alt | star | plus | range=>exact hn.elim
 | empty | start | stop | boundary | nonBoundary=>
  rw[h]at hb
  cases hb
 | gap _ _ g=>exact absurd (h.2.2 _ hb).2 nofun
 | literal | masked | any=>
  obtain⟨x,hx,rfl⟩:=h
  cases mem_singleton.1 hb
  exact⟨rfl,rfl,hx⟩
 | _=>
  obtain⟨x,hx,rfl⟩:=h
  cases mem_singleton.1 hb
lemma Derives.anchorAt (n:Node):∀anchor d,n.Derives c anchor d→
 ∀b k,(b,some k)∈d→∃leaf,AnchorAt n.leaves anchor k leaf∧leaf.takes c b:=by
 induction n using induction (Q:=fun ns=>∀anchor d,DerivesList c anchor ns d→∀b k,(b,some k)∈d→
   ∃leaf,AnchorAt (leavesList ns) anchor k leaf∧leaf.takes c b) with
 | leaf n hn=>
  intro anchor d h b k hb
  obtain⟨rfl,h1,h2⟩:=hn.derives h hb
  exact⟨n,⟨le_rfl,by simp[hn.leaves_eq,h1]⟩,h2⟩
 | cat _ ih=>exact ih
 | alt l r ihl ihr=>
  intro anchor d h b k hb
  rcases h with h|h
  ·obtain⟨leaf,ha,ht⟩:=ihl anchor d h b k hb
   exact⟨leaf,ha.append_left _,ht⟩
  ·obtain⟨leaf,ha,ht⟩:=ihr _ d h b k hb
   exact⟨leaf,AnchorAt.append_right _ (by rwa[length_leaves]),ht⟩
 | star g e ih=>
  rintro anchor d ⟨ds,hds,rfl⟩ b k hb
  obtain⟨x,hx,hb⟩:=mem_flatten.1 hb
  exact ih anchor x (hds x hx) b k hb
 | plus g e ih=>
  rintro anchor d ⟨ds,-,hds,rfl⟩ b k hb
  obtain⟨x,hx,hb⟩:=mem_flatten.1 hb
  exact ih anchor x (hds x hx) b k hb
 | range _ _ g e ih=>
  rintro anchor d ⟨ds,-,-,hds,rfl⟩ b k hb
  obtain⟨x,hx,hb⟩:=mem_flatten.1 hb
  exact ih anchor x (hds x hx) b k hb
 | nil _ d h b k hb=>
  rw[h]at hb
  cases hb
 | cons n _ ihn ihns anchor d h b k hb=>
  obtain⟨x,y,hx,hy,rfl⟩:=h
  rcases mem_append.1 hb with hb|hb
  ·obtain⟨leaf,ha,ht⟩:=ihn anchor x hx b k hb
   exact⟨leaf,ha.append_left _,ht⟩
  ·obtain⟨leaf,ha,ht⟩:=ihns _ y hy b k hb
   exact⟨leaf,AnchorAt.append_right _ (by rwa[length_leaves]),ht⟩
lemma Derives.isSome_seat (bc:Bool)(n:Node):∀anchor d,n.Derives c anchor d→∀b k,(b,some k)∈d→∀a,
  (n.seat bc anchor a k).isSome:=by
 induction n using induction (Q:=fun ns=>∀anchor d,DerivesList c anchor ns d→∀b k,(b,some k)∈d→∀a,
   (seatList bc ns anchor a k).isSome) with
 | leaf n hn=>
  intro anchor d h b k hb a
  obtain⟨rfl,h₁,-⟩:=hn.derives h hb
  simp[hn.seat_eq,h₁]
 | cat _ ih=>exact ih
 | alt l r ihl ihr=>
  intro anchor d h b k hb a
  rw[seat,isSome_or,Bool.or_eq_true]
  rcases h with h|h
  ·exact Or.inr (ihl anchor d h b k hb _)
  ·exact Or.inl (ihr _ d h b k hb _)
 | star g e ih=>
  rintro anchor d ⟨ds,hds,rfl⟩ b k hb a
  obtain⟨x,hx,hb⟩:=mem_flatten.1 hb
  exact ih anchor x (hds x hx) b k hb _
 | plus g e ih=>
  rintro anchor d ⟨ds,-,hds,rfl⟩ b k hb a
  obtain⟨x,hx,hb⟩:=mem_flatten.1 hb
  exact ih anchor x (hds x hx) b k hb _
 | range lo hi g e ih=>
  rintro anchor d ⟨ds,-,hhi,hds,rfl⟩ b k hb a
  obtain⟨x,hx,hb⟩:=mem_flatten.1 hb
  have hp:0<ds.length:=length_pos_of_mem hx
  rw[seat,isSome_or,Bool.or_eq_true]
  by_cases hlo:lo>0
  ·rw[if_pos hlo]
   exact Or.inr (ih anchor x (hds x hx) b k hb _)
  have h0:lo=0:=by omega
  have h1:hi>0:=by
   rcases hhi with h|h
   ·omega
   ·rw[Limits.regexRepeat]at h
    omega
  rw[if_pos (by simp[h0,hasEpilog,h1])]
  exact Or.inl (ih anchor x (hds x hx) b k hb _)
 | nil _ d h b k hb=>
  rw[h]at hb
  cases hb
 | cons n ns ihn ihns anchor d h b k hb a=>
  obtain⟨x,y,hx,hy,rfl⟩:=h
  have hor:(∀a,(n.seat bc anchor a k).isSome)∨∀a,(seatList bc ns (anchor+n.anchors) a k).isSome:=
   (mem_append.1 hb).imp (ihn anchor x hx b k) (ihns _ y hy b k)
  rw[seatList]
  grind

/-- The instruction of a leaf stands where an entry refers to: forwards at the address, back
just before it. -/
def RefersTo (c:Code)(back:Bool)(s:Nat)(leaf:Node):Prop:=
 ∃i,leaf? leaf=some i∧∃a,c.fetch a=i∧s=if back then a+i.size else a
lemma Laid.refersTo {c:Code}{b:Bool}(n:Node):∀anchor a,n.Laid c b a→∀k s,n.seat b anchor a k=some s→
  ∃leaf,AnchorAt n.leaves anchor k leaf∧RefersTo c b s leaf:=by
 induction n using induction (Q:=fun ns=>∀anchor a,LaidList c b ns a→∀k s,seatList b ns anchor a k=some s→
   ∃leaf,AnchorAt (leavesList ns) anchor k leaf∧RefersTo c b s leaf) with
 | leaf n hn=>
  intro anchor a hl k s hs
  rw[hn.seat_eq]at hs
  split at hs
  ·rename_i h
   obtain⟨h1,rfl⟩:=h
   cases hi:leaf? n with
   | none=>exact absurd h1 (by cases n<;>simp_all [IsLeaf,leaf?,anchors])
   | some i=>
    refine⟨n,⟨le_rfl,by simp[hn.leaves_eq,h1]⟩,i,hi,a,(hn.laid_iff c b a).1 hl i hi,?_⟩
    rw[hn.codeSize_eq,hi]at hs
    exact (some.inj hs).symm
  ·cases hs
 | cat _ ih=>exact ih
 | alt l r ihl ihr=>
  intro anchor a hl k s hs
  rw[seat,or_eq_some_iff]at hs
  rcases hs with hs|⟨-,hs⟩
  ·obtain⟨leaf,ha,hr⟩:=ihr _ _ hl.2.2.2 k s hs
   exact⟨leaf,AnchorAt.append_right _ (by rwa[length_leaves]),hr⟩
  ·obtain⟨leaf,ha,hr⟩:=ihl _ _ hl.2.1 k s hs
   exact⟨leaf,ha.append_left _,hr⟩
 | star g e ih=>exact fun anchor a hl=>ih anchor (a+4) hl.2.1
 | plus g e ih=>exact fun anchor a hl=>ih anchor a hl.1
 | range _ _ g e ih=>
  intro anchor a hl k s hs
  rw[seat,or_eq_some_iff]at hs
  rcases hs with hs|⟨-,hs⟩
  ·split at hs
   ·exact ih anchor _ (hl.2.2.2 (by simp_all)) k s hs
   ·cases hs
  ·split at hs
   ·rename_i h
    exact ih anchor _ (hl.1 h) k s hs
   ·cases hs
 | nil _ a _ k s hs=>cases hs
 | cons n ns ihn ihns anchor a hl k s hs=>
  rw[LaidList]at hl
  rw[seatList]at hs
  have hor:(∃leaf,AnchorAt n.leaves anchor k leaf∧RefersTo c b s leaf)∨
   ∃leaf,AnchorAt (leavesList ns) (anchor+n.anchors) k leaf∧RefersTo c b s leaf:=by
   split at hs
   ·rename_i hb
    rw[if_pos hb]at hl
    rcases Option.or_eq_some_iff.1 hs with hs|⟨-,hs⟩
    ·exact Or.inl (ihn _ _ hl.2 k s hs)
    ·exact Or.inr (ihns _ _ hl.1 k s hs)
   ·rename_i hb
    rw[if_neg hb]at hl
    rcases Option.or_eq_some_iff.1 hs with hs|⟨-,hs⟩
    ·exact Or.inr (ihns _ _ hl.2 k s hs)
    ·exact Or.inl (ihn _ _ hl.1 k s hs)
  rcases hor with⟨leaf,ha,hr⟩|⟨leaf,ha,hr⟩
  ·exact⟨leaf,ha.append_left _,hr⟩
  ·exact⟨leaf,AnchorAt.append_right _ (by rwa[length_leaves]),hr⟩
end PatternScan.Regex.Node