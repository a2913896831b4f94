import PatternScan.Atom.Choice
import PatternScan.Proofs.Regex.Derivation
/-! The recent pieces are the last bytes that were matched, and every finished child stands in the word. -/
open List
namespace PatternScan
open Or MaskedByte Atom
open Limits (atomQuality atomLength)
open Regex (Node Comparison Derivation)
def Bytes.Alike (ignoreCase:Bool)(b c:UInt8):Prop:=
 b=c∨(ignoreCase=true∧lower b=lower c)
def MaskedByte.IsDigitMask (mask:UInt8):Prop:=mask=0∨mask=15∨mask=240
def MaskedByte.admits (ignoreCase:Bool)(m:MaskedByte)(b:UInt8):Prop:=
 if m.mask=255 then Bytes.Alike ignoreCase b m.value
 else IsDigitMask m.mask∧b &&& m.mask=m.value
mutual
def Regex.Node.DigitMasks:Node→Prop
 | .masked v m=>MaskedByte.IsDigitMask m∧v &&& m=v
 | .cat parts=>DigitMasksList parts
 | .alt l r=>l.DigitMasks∧r.DigitMasks
 | .star _ e | .plus _ e | .range _ _ _ e=>e.DigitMasks
 | _=>True
def Regex.Node.DigitMasksList:List Node→Prop
 | []=>True
 | n::ns=>n.DigitMasks∧DigitMasksList ns
end
namespace Atom
/-- The atom stands in a derivation, and its first byte was matched by the anchor. -/
def Occurs (ignoreCase:Bool)(a:Atom)(anchor:Nat)(d:Derivation):Prop:=
 ∃l m r,d=l++m++r∧Forall₂ (fun b x=>b.admits ignoreCase x.1) a m∧∀x∈m.head?,x.2=some anchor
lemma Occurs.extend {ignoreCase:Bool}{a:Atom}{an:Nat}{d:Derivation}
 (h:Occurs ignoreCase a an d)(x y:Derivation):
 Occurs ignoreCase a an (x++d++y):=by
 obtain⟨l,m,r,rfl,hm,hh⟩:=h
 exact⟨x++l,m,r++y,by simp,hm,hh⟩
lemma trim_isPrefix (a:Atom):(trim a).2 <+: a.drop (trim a).1:=by
 rw[trim]
 dsimp only
 have hc:((a.drop (a.takeWhile fun b=>decide (b.mask=0)).length).reverse.dropWhile
  fun b=>decide (b.mask=0)).reverse <+:
  a.drop (a.takeWhile fun b=>decide (b.mask=0)).length:=by
  rw[←reverse_suffix,reverse_reverse]
  exact dropWhile_suffix _
 split
 ·exact nil_prefix
 ·split
  ·exact ( take_prefix 1 _).trans hc
  ·exact hc
lemma core_eq (l:Atom)(hf:∀b∈l.head?,b.mask≠0)(hl:∀b∈l.getLast?,b.mask≠0):
 l.takeWhile (fun b=>decide (b.mask=0))=[]∧(l.reverse.dropWhile fun b=>decide (b.mask=0)).reverse=l:=by
 constructor
 ·cases l with
  | nil=>rfl
  | cons b l=>simp[hf b (by simp)]
 rw[getLast?_eq_head?_reverse]at hl
 cases hr:l.reverse with
 | nil=>simp[reverse_eq_nil_iff.1 hr]
 | cons b r=>
  rw[hr]at hl
  rw[dropWhile_cons_of_neg (by simpa using hl b (by simp)),←hr,reverse_reverse]
lemma trim_core (l:Atom)(hne:l≠[])(hf:∀b∈l.head?,b.mask≠0)(hl:∀b∈l.getLast?,b.mask≠0):
 trim l=(0,if l.countP (fun b=>decide (b.mask=0))≥l.countP (fun b=>decide (b.mask=255)) then l.take 1 else l):=by
 obtain⟨h1,h2⟩:=core_eq l hf hl
 rw[trim]
 rw[h1,length_nil,drop_zero,h2]
 simp[hne]
lemma trim_trim (a:Atom):trim (trim a).2=(0,(trim a).2):=by
 have hn:trim []=(0,[]):=by simp[trim]
 set core:=((a.drop (a.takeWhile fun b=>decide (b.mask=0)).length).reverse.dropWhile
  fun b=>decide (b.mask=0)).reverse with hco
 have ht:(trim a).2=if core.isEmpty then [] else
  if core.countP (fun b=>decide (b.mask=0))≥core.countP (fun b=>decide (b.mask=255))
  then core.take 1 else core:=by
  rw[trim]
  split<;>rfl
 by_cases he:core=[]
 ·rw[ht,he]
  simpa using hn
 -- The core starts and ends with bytes of which something is known.
 have hl:∀b∈core.getLast?,b.mask≠0:=by
  intro b hb
  rw[getLast?_reverse]at hb
  have:=head?_dropWhile_not (fun b:MaskedByte=>decide (b.mask=0))
   (a.drop (a.takeWhile fun b=>decide (b.mask=0)).length).reverse
  rw[hb]at this
  simpa using this
 have hf:∀b∈core.head?,b.mask≠0:=by
  intro b hb
  have hp:core <+: a.drop (a.takeWhile fun b=>decide (b.mask=0)).length:=by
   rw[←reverse_suffix,reverse_reverse]
   exact dropWhile_suffix _
  obtain⟨r,hr⟩:=hp
  have hdr:a.drop (a.takeWhile fun b=>decide (b.mask=0)).length=a.dropWhile fun b=>decide (b.mask=0):=by
   have:=congrArg (drop (a.takeWhile fun b=>decide (b.mask=0)).length)
    (takeWhile_append_dropWhile (p:=fun b:MaskedByte=>decide (b.mask=0)) (l:=a))
   rw[drop_left]at this
   exact this.symm
  have hh:(a.dropWhile fun b=>decide (b.mask=0)).head?=some b:=by
   rw[←hdr,←hr,head?_append,Option.mem_def.1 hb]
   rfl
  have:=head?_dropWhile_not (fun b:MaskedByte=>decide (b.mask=0)) a
  rw[hh]at this
  simpa using this
 rw[ht,if_neg (by simpa using he)]
 split
 ·obtain⟨b,l,hbl⟩:=exists_cons_of_ne_nil he
  have hb:=hf b (by simp[hbl])
  rw[hbl,take_succ_cons,take_zero,trim_core [b] (by simp) (by simpa using hb) (by simpa using hb)]
  simp
 ·rename_i hc
  rw[trim_core core he hf hl,if_neg hc]
end Atom
namespace AtomTree
variable {d:Derivation}
mutual
/-- The atoms of a tree stand in a derivation: of an alternative's branches one is enough, of other atoms every one
does. -/
def Covers (ignoreCase:Bool)(d:Derivation):AtomTree→Prop
 | .leaf a k=>a.trim=(0,a)∧a.Occurs ignoreCase k d
 | .anyOf ts=>CoversEach ignoreCase d ts
 | .allOf ts=>CoversSome ignoreCase d ts
def CoversEach (ignoreCase:Bool)(d:Derivation):List AtomTree→Prop
 | []=>True
 | t::ts=>Covers ignoreCase d t∧CoversEach ignoreCase d ts
def CoversSome (ignoreCase:Bool)(d:Derivation):List AtomTree→Prop
 | []=>False
 | t::ts=>Covers ignoreCase d t∨CoversSome ignoreCase d ts
end
variable {ignoreCase:Bool}
lemma coversEach_iff {ts:List AtomTree}:CoversEach ignoreCase d ts↔∀t∈ts,Covers ignoreCase d t:=by
 induction ts with
 | nil=>simp[CoversEach]
 | cons t _ ih=>simp[CoversEach,ih]
mutual
theorem Covers.extend {d:Derivation}(x y:Derivation):(t:AtomTree)→
 Covers ignoreCase d t → Covers ignoreCase (x++d++y) t
 | .leaf _ _,h=>⟨h.1,h.2.extend x y⟩
 | .anyOf ts,h=>CoversEach.extend x y ts h
 | .allOf ts,h=>CoversSome.extend x y ts h
theorem CoversEach.extend {d:Derivation}(x y:Derivation):(ts:List AtomTree)→
 CoversEach ignoreCase d ts → CoversEach ignoreCase (x++d++y) ts
 | [],_=>trivial
 | t::ts,h=>⟨Covers.extend x y t h.1,CoversEach.extend x y ts h.2⟩
theorem CoversSome.extend {d:Derivation}(x y:Derivation):(ts:List AtomTree)→
 CoversSome ignoreCase d ts → CoversSome ignoreCase (x++d++y) ts
 | t::ts,h=>h.imp (Covers.extend x y t) (CoversSome.extend x y ts)
end
def Found (ignoreCase:Bool)(d:Derivation)(l:List ChosenAtom):Prop:=
 ∃c∈l,c.atom≠[]∧c.atom.Occurs ignoreCase c.anchor d
lemma Found.mono {l r:List ChosenAtom}(h:Found ignoreCase d l)(hs:l ⊆ r):Found ignoreCase d r:=by
 obtain⟨c,hc,hf⟩:=h
 exact⟨c,hs hc,hf⟩
def better (rule:QualityRule)(t:AtomTree)(x:List ChosenAtom×Int):List ChosenAtom×Int:=
 if (t.choose rule).2>x.2 then t.choose rule else x
lemma chooseBest_cons (rule:QualityRule)(t:AtomTree)(ts:List AtomTree)(bs:List ChosenAtom)(q:Int):
 chooseBest rule (t::ts) bs q=
  if (better rule t (bs,q)).2=atomQuality then better rule t (bs,q)
  else chooseBest rule ts (better rule t (bs,q)).1 (better rule t (bs,q)).2:=by
 rw[chooseBest,better]
lemma chooseAll_spec (rule:QualityRule)(ts:List AtomTree)(all:List ChosenAtom)(q:Int):
 all ⊆ (chooseAll rule ts all q).1∧(chooseAll rule ts all q).2≤q:=by
 induction ts generalizing all q with
 | nil=>exact⟨Subset.refl _,le_refl _⟩
 | cons t _ ih=>
  obtain⟨h1,h2⟩:=ih ((t.choose rule).1++all) (min q (t.choose rule).2)
  exact⟨Subset.trans (subset_append_right _ _) h1,h2.trans (min_le_left _ _)⟩
mutual
theorem choose_found (rule:QualityRule){d:Derivation}:(t:AtomTree)→
 Covers ignoreCase d t→0<(t.choose rule).2→Found ignoreCase d (t.choose rule).1
 | .leaf a k,h,hq=>by
  rw[choose,h.1]at hq⊢
  dsimp only at hq⊢
  by_cases he:a.isEmpty
  ·rw[if_pos he]at hq
   exact absurd hq (lt_irrefl 0)
  ·rw[if_neg he]
   exact⟨⟨a,k+0⟩,mem_singleton_self _,by simpa using he,h.2⟩
 | .anyOf ts,h,hq=>chooseBest_found rule ts [] 0 h (fun h0=>absurd h0 (lt_irrefl 0)) hq
 | .allOf ts,h,hq=>chooseAll_found rule ts [] atomQuality h hq
theorem chooseBest_found (rule:QualityRule){d:Derivation}:(ts:List AtomTree)→
 (best:List ChosenAtom)→(q:Int) → CoversEach ignoreCase d ts→
 (0<q→Found ignoreCase d best)→0<(chooseBest rule ts best q).2→
 Found ignoreCase d (chooseBest rule ts best q).1
 | [],best,q,_,hb,hq=>hb hq
 | t::ts,best,q,h,hb,hq=>by
  have hbe:0<(better rule t (best,q)).2→Found ignoreCase d (better rule t (best,q)).1:=by
   rw[better]
   split
   ·exact choose_found rule t h.1
   ·exact hb
  rw[chooseBest_cons]at hq⊢
  split at hq
  ·rename_i hx
   rw[if_pos hx]
   exact hbe hq
  ·rename_i hx
   rw[if_neg hx]
   exact chooseBest_found rule ts _ _ h.2 hbe hq
theorem chooseAll_found (rule:QualityRule){d:Derivation}:(ts:List AtomTree)→
 (all:List ChosenAtom)→(q:Int) → CoversSome ignoreCase d ts→
 0<(chooseAll rule ts all q).2→Found ignoreCase d (chooseAll rule ts all q).1
 | t::ts,all,q,h,hq=>by
  rw[chooseAll]at hq⊢
  obtain⟨hs,hle⟩:=chooseAll_spec rule ts ((t.choose rule).1++all) (min q (t.choose rule).2)
  rcases h with h|h
  ·have hp:0<(t.choose rule).2:=hq.trans_le (hle.trans (min_le_right _ _))
   exact (choose_found rule t h hp).mono (Subset.trans (subset_append_left _ _) hs)
  ·exact chooseAll_found rule ts _ _ h hq
end
lemma chooseBest_pos (rule:QualityRule)(ts:List AtomTree)(bs:List ChosenAtom)(q:Int)
 (hq:0≤q)(hb:bs≠[]→0<q)(h:(chooseBest rule ts bs q).1≠[]):
 0<(chooseBest rule ts bs q).2:=by
 induction ts generalizing bs q with
 | nil=>exact hb h
 | cons t _ _=>
  have hbe:0≤(better rule t (bs,q)).2∧((better rule t (bs,q)).1≠[]→0<(better rule t (bs,q)).2):=by
   rw[better]
   grind
  rw[chooseBest_cons]at h⊢
  grind
def Piece.Fits (ignoreCase:Bool)(p:Piece)(x:UInt8×Option Nat):Prop:=
 p.byte.admits ignoreCase x.1∧x.2=some p.anchor
namespace Builder
lemma quality_nonneg (rule:QualityRule)(a:Atom)(h:a.length≤atomLength):0≤a.quality rule:=by
 cases rule with
 | heuristic=>
  have hp:∀b:MaskedByte,-10≤Atom.points b:=by
   intro b
   simp only[Atom.points]
   split_ifs<;>decide
  have hsu:∀l:Atom,-10*(l.length:Int)≤(l.map Atom.points).foldr (·+·) 0:=by
   intro l
   induction l with
   | nil=>simp
   | cons b l ih=>grind
  have hb:=hsu a
  simp only[atomLength]at h
  simp only[Atom.quality,Atom.heuristicQuality,atomQuality,atomLength]
  split
  ·split<;>omega
  ·omega
 | table e=>
  have hs:∀fl f stop,0≤Atom.searchTable e a fl f stop:=by
   intro fl
   induction fl with
   | zero=>exact fun _ _=>by rw[Atom.searchTable];decide
   | succ fl ih=>
    intro f stop
    rw[Atom.searchTable]
    dsimp only
    split_ifs
    ·exact ih _ _
    ·exact ih _ _
    ·exact Int.natCast_nonneg _
    ·decide
  exact hs _ _ _

/-- What a builder knows of a derivation: where its recent pieces stand, and that its best atom and its children stand
in it. -/
structure Sees (ignoreCase:Bool)(b:Builder)(d:Derivation):Prop where
 /-- The recent pieces are the last ones, unless nothing can be better than the best atom. -/
 recent:∃l m r,d=l++m++r∧Forall₂ (Piece.Fits ignoreCase) b.recent m∧
  (r=[]∨(b.recent.length=atomLength∧atomQuality≤b.bestQuality))
 length_le:b.recent.length≤atomLength
 best:-1<b.bestQuality→b.best.1.trim=(0,b.best.1)∧b.best.1.Occurs ignoreCase b.best.2 d
 children:∀t∈b.children.toList,Covers ignoreCase d t
lemma sees_empty:Sees ignoreCase empty [] where
 recent:=⟨[],[],[],rfl,List.Forall₂.nil,Or.inl rfl⟩
 length_le:=zero_le
 best:=fun h=>absurd h (lt_irrefl _)
 children:=fun _ ht=>absurd ht not_mem_nil
variable {b:Builder}{d:Derivation}
lemma Sees.recentAtom (h:Sees ignoreCase b d):b.recentAtom.1.trim=(0,b.recentAtom.1)∧
  b.recentAtom.1.Occurs ignoreCase b.recentAtom.2 d∧
  b.recentAtom.1.length≤atomLength:=by
 obtain⟨l,m,r,rfl,hm,_⟩:=h.recent
 have hpr:=Atom.trim_isPrefix (b.recent.map (·.byte))
 refine⟨Atom.trim_trim _,?_,?_⟩
 · -- The trimmed atom is a part of the pieces, which starts `shift` bytes on.
  rw[Builder.recentAtom]
  dsimp only
  generalize (Atom.trim (b.recent.map (·.byte))).1=shift at hpr⊢
  generalize (Atom.trim (b.recent.map (·.byte))).2=atom at hpr⊢
  obtain⟨rs,hr⟩:=hpr
  have hdr:=forall₂_drop shift hm
  have hb:List.Forall₂ (fun (c:MaskedByte) (x:UInt8×Option Nat)=>
   c.admits ignoreCase x.1) (atom++rs) (m.drop shift):=by
   rw[hr,←map_drop,forall₂_map_left_iff]
   exact hdr.imp fun _ _ hp=>hp.1
  have ht:=forall₂_take atom.length hb
  rw[take_left]at ht
  refine⟨l++m.take shift,(m.drop shift).take atom.length,(m.drop shift).drop atom.length++r,?_,ht,fun x hx=>?_⟩
  ·have h1:=take_append_drop atom.length (m.drop shift)
   have h2:=take_append_drop shift m
   grind
  rw[head?_take]at hx
  split at hx
  ·cases hx
  rw[←head?_drop]
  generalize b.recent.drop shift=ps at hdr⊢
  generalize m.drop shift=xs at hdr hx
  cases hdr with
  | nil=>cases hx
  | cons hp _=>
   obtain rfl:=Option.some.inj hx
   exact hp.2
 ·have:=hpr.length_le
  rw[length_drop,length_map]at this
  have:=h.length_le
  change (Atom.trim (b.recent.map (·.byte))).2.length≤_
  omega
section
variable (h:Sees ignoreCase b d)(rule:QualityRule)
include h rule
lemma Sees.push {p:Piece}{x:UInt8×Option Nat}(hx:p.Fits ignoreCase x):
 Sees ignoreCase (b.push rule p) (d++[x]):=by
 have hk:∀t∈b.children.toList,Covers ignoreCase (d++[x]) t:=
  fun t ht=>Covers.extend [] [x] t (h.children t ht)
 have hb:-1<b.bestQuality→b.best.1.trim=(0,b.best.1)∧b.best.1.Occurs ignoreCase b.best.2 (d++[x]):=
  fun hq=>⟨(h.best hq).1,(h.best hq).2.extend [] [x]⟩
 obtain⟨htr,ho,_⟩:=h.recentAtom
 obtain⟨l,m,r,rfl,hm,hr⟩:=h.recent
 have hl:=h.length_le
 rw[Builder.push]
 split
 · -- There is room for one more piece.
  rename_i hro
  obtain rfl:r=[]:=hr.resolve_right fun hf=>absurd hf.1 (Nat.ne_of_lt hro)
  refine⟨⟨l,m++[x],[],by simp,?_,Or.inl rfl⟩,?_,hb,hk⟩
  ·exact rel_append hm (List.Forall₂.cons hx List.Forall₂.nil)
  ·simp only[length_append,length_singleton]
   omega
 split
 · -- The window moves on by one piece, and its atom may be the best one.
  rename_i hq
  obtain rfl:r=[]:=hr.resolve_right fun hf=>absurd hq (not_lt.2 hf.2)
  have hw:∃l' m' r',l++m++[]++[x]=l'++m'++r'∧
   List.Forall₂ (Piece.Fits ignoreCase) (b.recent.drop 1++[p]) m'∧r'=[]:=by
   refine⟨l++m.take 1,m.drop 1++[x],[],?_,?_,rfl⟩
   ·have:=take_append_drop 1 m
    calc l++m++[]++[x]=l++(m.take 1++m.drop 1)++[x]:=by rw[this];simp
     _=_:=by simp only[append_assoc,append_nil]
   ·exact rel_append (forall₂_drop 1 hm) (List.Forall₂.cons hx List.Forall₂.nil)
  obtain⟨l',m',r',hd,hm',hr'⟩:=hw
  have hl':(b.recent.drop 1++[p]).length≤atomLength:=by
   have:0<atomLength:=by decide
   rw[length_append,length_drop,length_singleton]
   omega
  dsimp only
  split
  ·exact⟨⟨l',m',r',hd,hm',Or.inl hr'⟩,hl', fun _=>⟨htr,ho.extend [] [x]⟩,hk⟩
  ·exact⟨⟨l',m',r',hd,hm',Or.inl hr'⟩,hl',hb,hk⟩
 ·rename_i hq
  refine⟨⟨l,m,r++[x],by simp,hm,Or.inr ⟨?_,not_lt.1 hq⟩⟩,hl,hb,hk⟩
  omega
lemma Sees.flush_children (v:Derivation)(ts:Array AtomTree)(hts:∀t∈ts.toList,Covers ignoreCase (d++v) t):
 Sees ignoreCase (Builder.flush rule {b with children:=ts}) (d++v):=by
 have hn:∃l m r,d++v=l++m++r∧List.Forall₂ (Piece.Fits ignoreCase) ([]:List Piece) m∧r=[]:=
  ⟨d++v,[],[],by simp,List.Forall₂.nil,rfl⟩
 obtain⟨l,m,r,hd,hm,hr⟩:=hn
 rw[Builder.flush]
 split
 ·rename_i he
  rw[List.isEmpty_iff]at he
  exact⟨⟨l,m,r,hd,by rw[he];exact hm,Or.inl hr⟩,h.length_le,fun hq=>absurd hq (lt_irrefl _),hts⟩
 obtain⟨htr,ho,hle⟩:=h.recentAtom
 -- Either atom stands in the derivation; the best one is taken only if there is one.
 have hl:Covers ignoreCase (d++v)
  (.leaf (if b.recentAtom.1.quality rule>b.bestQuality then b.recentAtom else b.best).1
   (if b.recentAtom.1.quality rule>b.bestQuality then b.recentAtom else b.best).2):=by
  split
  ·exact⟨htr,ho.extend [] v⟩
  ·have hno:=quality_nonneg rule _ hle
   obtain⟨htr',ho'⟩:=h.best (by omega)
   exact⟨htr',ho'.extend [] v⟩
 refine⟨⟨l,m,r,hd,hm,Or.inl hr⟩,zero_le,fun hq=>absurd hq (lt_irrefl _),?_⟩
 intro t ht
 rw[Array.toList_push,mem_append,mem_singleton]at ht
 rcases ht with ht|rfl
 ·exact hts t ht
 ·exact hl
lemma Sees.flush (v:Derivation):Sees ignoreCase (b.flush rule) (d++v):=
 h.flush_children rule v b.children fun t ht=>Covers.extend [] v t (h.children t ht)
lemma Sees.leaf {c:Comparison}(hc:c.ignoreCase=ignoreCase){a:Nat}{n:Node}
 {m:MaskedByte}{v:Derivation}(hn:n.anchors=1)
 (hm:∀x,n.takes c x→m.admits c.ignoreCase x)
 (hv:∃x,n.takes c x∧v=[(x,if n.anchors=1 then some a else none)]):
 Sees ignoreCase (b.push rule ⟨m,a⟩) (d++v):=by
 obtain⟨x,hx,rfl⟩:=hv
 rw[if_pos hn]
 exact h.push rule ⟨hc▸hm x hx,rfl⟩
end
lemma Sees.times {rule:QualityRule}{c:Comparison}{a:Nat}{e:Node}
 (ha:∀{b d v},e.Derives c a v→Sees ignoreCase b d→Sees ignoreCase (add rule a e b) (d++v))
 (h:Sees ignoreCase b d)(ds:List Derivation)(hd:∀x∈ds,e.Derives c a x)(k:Nat)
 (hk:k≤ds.length):
 Sees ignoreCase (Nat.repeat (add rule a e) k b) (d++(ds.take k).flatten):=by
 induction k with
 | zero=>simpa[Nat.repeat]using h
 | succ k ih=>
  rw[←take_concat_get' _ k hk,flatten_append,←append_assoc,flatten_singleton]
  exact ha (hd _ (getElem_mem hk)) (ih (Nat.le_of_succ_le hk))
mutual
theorem sees_add (rule:QualityRule){c:Comparison}(hc:c.ignoreCase=ignoreCase):
 (n:Node)→{anchor:Nat}→{b:Builder}→{d v:Derivation}→n.DigitMasks→
 n.Derives c anchor v→Sees ignoreCase b d→Sees ignoreCase (add rule anchor n b) (d++v)
 | .literal x _,_,_,_,_,_,hv,h=>by
  rw[add]
  refine h.leaf rule hc rfl (fun y hy=>?_) hv
  rw[MaskedByte.admits,if_pos rfl]
  rw[Node.takes]at hy
  split at hy
  ·rename_i hca
   exact Or.inr ⟨hca,of_decide_eq_true hy⟩
  ·exact Or.inl (of_decide_eq_true hy)
 | .masked x m,_,_,_,_,hp,hv,h=>by
  rw[add]
  refine h.leaf rule hc rfl (fun y hy=>?_) hv
  have hm:m≠255:=by rcases hp.1 with rfl|rfl|rfl<;>decide
  rw[MaskedByte.admits,if_neg hm]
  exact⟨hp.1,of_decide_eq_true hy⟩
 | .any,_,_,_,_,_,hv,h=>by
  rw[add]
  refine h.leaf rule hc rfl (fun y _=>?_) hv
  rw[MaskedByte.admits,if_neg (by decide)]
  exact⟨Or.inl rfl,UInt8.and_zero⟩
 | .cat parts,_,_,_,_,hp,hv,h=>by
  rw[add]
  exact sees_addList rule hc parts hp hv h
 | .alt l r,anchor,b,d,v,hp,hv,h=>by
  rw[add]
  -- The atoms of one branch stand in what the branch matched.
  have hb:Covers ignoreCase v (.allOf [.anyOf ((add rule anchor l empty).flush rule).children.toList,
    .anyOf ((add rule (anchor+l.anchors) r empty).flush rule).children.toList]):=by
   rcases hv with hv|hv
   ·have hl:=((sees_add rule hc l hp.1 hv sees_empty).flush rule []).children
    rw[append_nil,nil_append]at hl
    exact Or.inl (coversEach_iff.2 hl)
   ·have hr:=((sees_add rule hc r hp.2 hv sees_empty).flush rule []).children
    rw[append_nil,nil_append]at hr
    exact Or.inr (Or.inl (coversEach_iff.2 hr))
  have ha:=Covers.extend d [] _ hb
  rw[append_nil]at ha
  refine h.flush_children rule v _ fun t ht=>?_
  rw[Array.toList_push,mem_append,mem_singleton]at ht
  rcases ht with ht|rfl
  ·exact Covers.extend [] v t (h.children t ht)
  ·exact ha
 | .plus _ e,_,_,_,_,hp,hv,h=>by
  obtain⟨ds,hne,hds,rfl⟩:=hv
  obtain⟨x,rs,rfl⟩:=exists_cons_of_ne_nil hne
  rw[add,flatten_cons,←append_assoc]
  exact (sees_add rule hc e hp (hds x (by simp)) h).flush rule rs.flatten
 | .range lo hi _ e,anchor,b,d,v,hp,hv,h=>by
  obtain⟨ds,hlo,_,hds,rfl⟩:=hv
  have hti:=h.times (fun hv h=>sees_add rule hc e hp hv h) ds hds (min lo atomLength)
   ((min_le_left _ _).trans hlo)
  have hf:d++ds.flatten=d++(ds.take (min lo atomLength)).flatten ++
   (ds.drop (min lo atomLength)).flatten:=by
   rw[append_assoc,←flatten_append,take_append_drop]
  rw[add,hf]
  exact hti.flush rule _
 | .star _ _,_,_,_,v,_,_,h | .gap _ _ _,_,_,_,v,_,_,h
 | .empty,_,_,_,v,_,_,h | .start,_,_,_,v,_,_,h | .stop,_,_,_,v,_,_,h
 | .boundary,_,_,_,v,_,_,h | .nonBoundary,_,_,_,v,_,_,h
 | .notLiteral _,_,_,_,v,_,_,h | .maskedNot _ _,_,_,_,v,_,_,h
 | .wordChar,_,_,_,v,_,_,h | .nonWordChar,_,_,_,v,_,_,h
 | .space,_,_,_,v,_,_,h | .nonSpace,_,_,_,v,_,_,h | .digit,_,_,_,v,_,_,h
 | .nonDigit,_,_,_,v,_,_,h | .cls _,_,_,_,v,_,_,h=>by
  simp only[add]
  exact h.flush rule v
theorem sees_addList (rule:QualityRule){c:Comparison}(hc:c.ignoreCase=ignoreCase):
 (ns:List Node)→{anchor:Nat}→{b:Builder}→{d v:Derivation}→
 Node.DigitMasksList ns→Node.DerivesList c anchor ns v→Sees ignoreCase b d→
 Sees ignoreCase (addList rule anchor ns b) (d++v)
 | [],anchor,b,d,v,_,hv,h=>by
  obtain rfl:v=[]:=hv
  simpa[addList]using h
 | n::ns,anchor,b,d,v,hp,hv,h=>by
  obtain⟨x,y,hx,hy,rfl⟩:=hv
  rw[addList,←append_assoc]
  exact sees_addList rule hc ns hp.2 hy (sees_add rule hc n hp.1 hx h)
end
end Builder
lemma choose_ofPattern_found (rule:QualityRule)(r:Node){c:Comparison}
 (hp:r.DigitMasks)(hd:r.Derives c 0 d)
 (hne:((ofPattern rule r).choose rule).1≠[]):
 Found c.ignoreCase d ((ofPattern rule r).choose rule).1:=by
 have hs:=((Builder.sees_add rule rfl r hp hd Builder.sees_empty).flush rule []).children
 rw[append_nil]at hs
 refine choose_found rule _ (coversEach_iff.2 hs) ?_
 exact chooseBest_pos rule _ [] 0 (le_refl 0) (fun h=>absurd rfl h) hne
end AtomTree
end PatternScan
