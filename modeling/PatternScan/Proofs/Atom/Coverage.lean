import PatternScan.Proofs.Atom.Items
import PatternScan.Proofs.HexString.Shape
import PatternScan.Proofs.Regex.Anchor
import PatternScan.Proofs.Regex.Emission
import PatternScan.Proofs.Regex.Grammar
/-! Every word that a pattern stands for holds one of the atoms of its list, in each form in which the
string is searched. -/
open List
namespace PatternScan
open AtomItem Bytes
/-! Regular expressions have no masked bytes, and the masked bytes of a hexadecimal string leave out one
digit or both. -/
open Regex (Node)
lemma Regex.Node.digitMasksList_iff (ns:List Node):DigitMasksList ns↔∀n∈ns,n.DigitMasks:=by
 induction ns with
 | nil=>simp[DigitMasksList]
 | cons n _ ih=>simp[DigitMasksList,ih]
lemma Regex.Node.Readable.digitMasks (n:Node):n.Readable→n.DigitMasks:=by
 induction n using induction (Q:=fun ns=>ReadableList ns→DigitMasksList ns) with
 | leaf n _=>cases n<;>simp_all [Readable,DigitMasks,IsLeaf]
 | cat _ ih=>exact fun h=>ih h.2
 | alt l r ihl ihr=>
  rintro⟨hl,hr|rfl⟩
  ·exact⟨ihl hl,ihr hr⟩
  ·exact⟨ihl hl,trivial⟩
 | star g e ih=>exact ih
 | plus g e ih=>exact ih
 | range _ _ g e ih=>exact fun h=>ih h.2.2
 | nil=>trivial
 | cons n _ ihn ihns h=>exact⟨ihn h.1,ihns h.2⟩
namespace HexString
lemma IsByte.digitMasks {n:Node}(h:IsByte n):n.DigitMasks:=by cases n<;>first | exact h | exact trivial | exact h.elim
lemma IsJump.digitMasks {ns:Bool}{n:Node}(h:IsJump ns n):n.DigitMasks:=by
 cases n<;>first | exact h.elim | exact trivial
lemma Shaped.digitMasks {ns:Bool}{n:Node}(h:Shaped ns n):n.DigitMasks:=by
 induction h with
 | byte h=>exact h.digitMasks
 | cat _ _ hj _ _ ih=>
  refine (Node.digitMasksList_iff _).2 fun n hn=>?_
  cases hg:HexString.isGap n with
  | true=>exact (hj n hn hg).digitMasks
  | false=>exact ih n hn hg
 | alt _ _ ihl ihr=>exact⟨ihl,ihr⟩
lemma read_digitMasks (t:Bytes):Yields (fun p=>p.root.DigitMasks) (read t):=
 fun p hp=>(read_shaped t p hp).1.digitMasks
end HexString
open Regex (Node Pattern Comparison Derivation Code Entry)
inductive Form where
 | plain | wide
 deriving DecidableEq
namespace Form
def width:Form→Nat
 | .plain=>1
 | .wide=>2
def spread:Form→List UInt8→List UInt8
 | .plain,w=>w
 | .wide,w=>Bytes.wide w

/-- Whether a string is searched in a form. Base64 forms are made wide before. -/
def Searched (flags:StringFlags):Form→Prop
 | .plain=>flags.wide=false∨flags.ascii=true∨flags.base64=true∨flags.base64Wide=true
 | .wide=>flags.wide=true∧flags.base64=false∧flags.base64Wide=false
lemma spread_append (f:Form)(v w:List UInt8):f.spread (v++w)=f.spread v++f.spread w:=by
 cases f with
 | plain=>rfl
 | wide=>exact wide_append v w
lemma length_spread (f:Form)(w:List UInt8):(f.spread w).length=f.width*w.length:=by
 cases f with
 | plain=>exact (one_mul _).symm
 | wide=>exact length_wide w
end Form
def Accepted (p:Pattern):Prop:=
 (∃text strict r,Regex.read text strict=.ok r∧r.pattern=p)∨∃text,HexString.read text=.ok p
lemma Accepted.digitMasks {p:Pattern}(h:Accepted p):p.root.DigitMasks:=by
 rcases h with⟨text,strict,r,hr,rfl⟩|⟨text,hp⟩
 ·exact (Regex.read_readable hr).digitMasks
 ·exact HexString.read_digitMasks text p hp
namespace AtomItem
variable {w:List UInt8}
lemma Listed.mono {i:Bool}{l r:List AtomItem}{e:Entry}
 (h:Listed i l e w)(hs:l ⊆ r):Listed i r e w:=by
 obtain⟨x,hx,hw⟩:=h
 exact⟨x,hs hx,hw⟩
lemma Listed.searched {f:StringFlags}{i:List AtomItem}{e:Entry}
 (h:Listed f.noCase i e w)(fr:Form)
 (hf:fr.Searched f):∃v,v <+: fr.spread w∧(w≠[]→v≠[])∧Listed f.noCase
   (if f.base64||f.base64Wide then i else withWide f i) e v:=by
 cases fr with
 | plain=>
  refine⟨w,prefix_rfl,id,?_⟩
  split
  ·exact h
  rw[withWide]
  split
  ·rw[if_pos]
   ·exact h.mono (subset_append_left _ _)
   ·simp_all [Form.Searched]
  ·exact h
 | wide=>
  obtain⟨hw,hb1,hb2⟩:=hf
  refine⟨(wide w).take Limits.atomLength, take_prefix _ _,?_,?_⟩
  ·intro hne
   obtain⟨b,w,rfl⟩:=exists_cons_of_ne_nil hne
   exact cons_ne_nil _ _
  ·rw[if_neg (by simp[hb1,hb2]),withWide,if_pos hw]
   split
   ·exact h.wideForms.mono (subset_append_right _ _)
   ·exact h.wideForms
lemma listed_expandAll {i:Bool}{it:List AtomItem}{x:AtomItem}
 (hp:∀y∈it,y.atom.Proper)(hx:x∈it)
 (hb:x.backtrack=0)
 (hw:Forall₂ (fun (m:MaskedByte) b=>m.admits i b) x.atom w):
 Listed i (expandAll it) x.entry w:=by
 obtain⟨a,ha,hs⟩:=Atom.exists_mem_expand (hp x hx) hw
 rw[expandAll_eq hp]
 refine⟨{x with atom:=a},mem_flatMap.2 ⟨x,hx,?_⟩,hs,rfl,hb⟩
 exact mem_map.2 ⟨a,ha,rfl⟩
end AtomItem
namespace AtomList
lemma ofPattern_found (rl:QualityRule)(fl:StringFlags){rt:Node}
 (e:Array Entry)(hp:rt.DigitMasks){c:Comparison}
 (hc:c.ignoreCase=fl.noCase){d:Derivation}(hd:rt.Derives c 0 d)
 (hne:(ofPattern rl fl rt e).items≠[])(f:Form)
 (hf:f.Searched fl):
 ∃x∈(ofPattern rl fl rt e).items,∃pos b k,d[pos]?=some (b,some k)∧x.atom.values≠[]∧
  x.atom.values <+: (f.spread d.word).drop (f.width*pos)∧
  x.entry=(e[k]?).getD ⟨none,none⟩∧x.backtrack=0:=by
 have hch:((AtomTree.ofPattern rl rt).choose rl).1≠[]:=by
  intro h
  apply hne
  rw[ofPattern]
  simp[h,expandAll,withWide,withCases,wideForms,otherCases]
 obtain⟨a,ha,han,l,m,r,rfl,hm,hh⟩:=AtomTree.choose_ofPattern_found rl rt hp hd hch
 have hi:(⟨a.atom,0,(e[a.anchor]?).getD ⟨none,none⟩⟩:AtomItem) ∈
  ((AtomTree.ofPattern rl rt).choose rl).1.map fun c=>
   (⟨c.atom,0,(e[c.anchor]?).getD ⟨none,none⟩⟩:AtomItem):=
  mem_map.2 ⟨a,ha,rfl⟩
 have hpr:∀y∈((AtomTree.ofPattern rl rt).choose rl).1.map fun c=>
  (⟨c.atom,0,(e[c.anchor]?).getD ⟨none,none⟩⟩:AtomItem),y.atom.Proper:=by
  intro y hy
  obtain⟨c,hc,rfl⟩:=mem_map.1 hy
  exact (AtomTree.choose_ofPattern_short rl rt hc).2.2 hp
 rw[hc]at hm
 have hl:=listed_expandAll hpr hi rfl (forall₂_map_right_iff.2 hm)
 obtain⟨v,hv,hvn,hl⟩:=hl.searched f hf
 obtain⟨x,hx,hxv,hxe,hxb⟩:=hl.withCases fl
 have hmn:m≠[]:=by
  rintro rfl
  exact han (forall₂_nil_right_iff.1 hm)
 obtain⟨⟨b,k⟩,m,rfl⟩:=exists_cons_of_ne_nil hmn
 obtain rfl:k=some a.anchor:=hh _ rfl
 refine⟨x,hx,l.length,b,a.anchor,?_,?_,?_,hxe,hxb⟩
 ·rw[append_assoc,getElem?_append_right le_rfl,Nat.sub_self]
  rfl
 ·rw[hxv]
  exact hvn (by simp)
 ·rw[hxv,Derivation.word,map_append,map_append,f.spread_append,f.spread_append,append_assoc,drop_left']
  ·exact hv.trans (prefix_append _ _)
  ·rw[f.length_spread,length_map]
end AtomList
lemma Regex.Pattern.entries_refer {p:Pattern}{cod co cd:Code}
 {e en:Array Entry}(h1:p.emit false cod p.noEntries=.ok (co,e))
 (h2:p.emit true co e=.ok (cd,en)){c:Comparison}{d:Derivation}
 (hd:p.root.Derives c 0 d){b:UInt8}{k:Nat}(hb:(b,some k)∈d):
 ∃leaf f g,p.root.leaves[k]?=some leaf∧leaf.takes c b∧en[k]?=some ⟨some f,some g⟩∧
  p.root.seat false 0 cod.size k=some f∧p.root.seat true 0 co.size k=some g∧
  Node.RefersTo cd false f leaf∧Node.RefersTo cd true g leaf:=by
 obtain⟨hst1,hsi1,-,rfl⟩:=emit_stands h1
 obtain⟨hst2,-,hfr,rfl⟩:=emit_stands h2
 obtain⟨leaf,hl,ht⟩:=hd.anchorAt _ _ _ b k hb
 obtain⟨f,hf⟩:=Option.isSome_iff_exists.1 (hd.isSome_seat false _ _ _ b k hb cod.size)
 obtain⟨g,hg⟩:=Option.isSome_iff_exists.1 (hd.isSome_seat true _ _ _ b k hb co.size)
 have hla:p.root.Laid cd false cod.size:=
  hst1.laid.congr _ _ fun x _ hx _=>hfr x (by omega)
 obtain⟨leaf1,hle1,href1⟩:=hla.refersTo _ _ _ k f hf
 obtain⟨leaf2,hle2,href2⟩:=hst2.laid.refersTo _ _ _ k g hg
 obtain rfl:leaf1=leaf:=Option.some.inj (hle1.2.symm.trans hl.2)
 obtain rfl:leaf2=leaf1:=Option.some.inj (hle2.2.symm.trans hl.2)
 refine⟨leaf2,f,g,hl.2,ht,?_,hf,hg,href1,href2⟩
 have hk:k<p.root.anchors:=by
  have:=(List.getElem?_eq_some_iff.1 hl.2).1
  rw[Node.length_leaves]at this
  exact this
 simp[noEntries,hf,hg,hk,Entry.refer]

/-- Whatever word a pattern matches, an atom of a list that is not empty stands in it, in each form that is searched,
with an entry for the leaf that matched its first byte. -/
theorem ofPattern_covers (p:Pattern) (hp:Accepted p) (rule:QualityRule) (flags:StringFlags)
 (code code₁ code₂:Code) (entries₁ entries₂:Array Entry)
 (h₁:p.emit false code p.noEntries = .ok (code₁,entries₁))
 (h₂:p.emit true code₁ entries₁ = .ok (code₂,entries₂))
 (hne:(AtomList.ofPattern rule flags p.root entries₂).items ≠ [])
 (c:Comparison) (hc:c.ignoreCase=flags.noCase) (d:Derivation)
 (hd:p.root.Derives c 0 d) (form:Form) (hform:form.Searched flags) :
 ∃ x∈(AtomList.ofPattern rule flags p.root entries₂).items,∃ pos b k leaf f g,
  x.atom.values ≠ [] ∧ x.backtrack=0 ∧
  x.atom.values <+: (form.spread d.word).drop (form.width*pos) ∧
  d[pos]? = some (b,some k) ∧ p.root.leaves[k]? = some leaf ∧ leaf.takes c b = true ∧
  entries₂[k]? = some x.entry ∧ x.entry = ⟨some f,some g⟩ ∧
  p.root.seat false 0 code.size k = some f ∧ p.root.seat true 0 code₁.size k = some g ∧
  Node.RefersTo code₂ false f leaf ∧ Node.RefersTo code₂ true g leaf := by
 obtain⟨x,hx,pos,b,k,hpos,hvne,hv,hent,hback⟩ :=
  AtomList.ofPattern_found rule flags entries₂ hp.digitMasks hc hd hne form hform
 obtain⟨leaf,f,g,hleaf,htakes,hk,hfs,hgs,hf,hg⟩ :=
  Pattern.entries_refer h₁ h₂ hd (mem_of_getElem? hpos)
 rw[hk,Option.getD_some]at hent
 exact⟨x,hx,pos,b,k,leaf,f,g,hvne,hback,hv,hpos,hleaf,htakes,hent ▸ hk,hent,hfs,hgs,hf,hg⟩
def branching:Pattern:=
 ⟨.cat [.alt (.cat [.literal 97 true,.literal 98 true]) (.cat [.literal 99 true,.literal 100 true]),
   .range 0 1 true (.literal 120 true),.plus true (.literal 101 true)],⟨false,false,true,false⟩⟩
lemma branching_accepted:Accepted branching:=by
 refine Or.inl ⟨⟨#[40,97,98,124,99,100,41,120,63,101,43]⟩,false,⟨branching,false⟩,?_,rfl⟩
 with_unfolding_all rfl
lemma branching_derives:branching.root.Derives ⟨true,false⟩ 0
 [(67,some 2),(100,some 3),(101,some 5),(69,some 5)]:=by
 refine⟨[(67,some 2),(100,some 3)],[(101,some 5),(69,some 5)],Or.inr ?_,
  ⟨[],[(101,some 5),(69,some 5)],?_,⟨[(101,some 5),(69,some 5)],[],?_,rfl,rfl⟩,rfl⟩,rfl⟩
 ·exact⟨[(67,some 2)],_,⟨67,rfl,rfl⟩,⟨[(100,some 3)],[],⟨100,rfl,rfl⟩,rfl,rfl⟩,rfl⟩
 ·exact⟨[],zero_le,Or.inl zero_le,nofun,rfl⟩
 ·refine⟨[[(101,some 5)],[(69,some 5)]],nofun,?_,rfl⟩
  rintro x (_|⟨_,_|⟨_,⟨⟩⟩⟩)
  ·exact⟨101,rfl,rfl⟩
  ·exact⟨69,rfl,rfl⟩
def branchingCode:Code×Array Entry:=
 match branching.emit false .empty branching.noEntries with
 | .ok r=>r
 | .error _=>(.empty,#[])
def branchingCodes:Code×Array Entry:=
 match branching.emit true branchingCode.1 branchingCode.2 with
 | .ok r=>r
 | .error _=>(.empty,#[])
theorem ofPattern_covers_branching :
 ∃ x∈(AtomList.ofPattern .heuristic { StringFlags.none with noCase := true,wide := true }
  branching.root branchingCodes.2).items,∃ (pos k:Nat) (leaf:Regex.Node) (f g:Nat),x.atom.values≠[]∧
   x.atom.values <+: [67,0,100,0,101,0,69,0].drop (2*pos)∧
   branchingCodes.2[k]?=some x.entry∧x.entry=⟨some f,some g⟩∧
   Node.RefersTo branchingCodes.1 false f leaf∧Node.RefersTo branchingCodes.1 true g leaf:=by
 have h₁:branching.emit false .empty branching.noEntries=
  .ok (branchingCode.1,branchingCode.2):=rfl
 have h₂:branching.emit true branchingCode.1 branchingCode.2=
  .ok (branchingCodes.1,branchingCodes.2):=rfl
 obtain⟨x,hx,pos,b,k,leaf,f,g,hne,-,hv,-,-,-,hk,he,-,-,hf,hg⟩ :=
  ofPattern_covers branching branching_accepted .heuristic
   {StringFlags.none with noCase:=true,wide:=true} .empty _ _ _ _ h₁ h₂
   (by cbv;simp) ⟨true,false⟩ rfl _ branching_derives .wide ⟨rfl,rfl,rfl⟩
 exact⟨x,hx,pos,k,leaf,f,g,hne,hv,hk,he,hf,hg⟩

/-- A pattern without any byte that is known gets an empty list, although it matches words. -/
theorem ofPattern_digit_empty :
 let p:Pattern:=⟨.cat [.digit],Regex.Traits.none⟩
 Accepted p∧p.root.Derives ⟨false,false⟩ 0 [(53,none)]∧
  ∀ rule flags entries,(AtomList.ofPattern rule flags p.root entries).items=[]:=by
 refine⟨Or.inl ⟨⟨#[92,100]⟩,false,⟨⟨.cat [.digit],Regex.Traits.none⟩,false⟩,?_,rfl⟩,
  ⟨[(53,none)],[],⟨53,rfl,rfl⟩,rfl,rfl⟩,fun rule flags entries=>?_⟩
 ·with_unfolding_all rfl
 ·have htree:AtomTree.ofPattern rule (.cat [.digit])=.anyOf []:=by
   simp[AtomTree.ofPattern,AtomTree.Builder.add,AtomTree.Builder.addList,
    AtomTree.Builder.flush,AtomTree.Builder.empty]
  simp[AtomList.ofPattern,htree,AtomTree.choose,AtomTree.chooseBest,AtomItem.expandAll,
   AtomItem.withWide,AtomItem.withCases,AtomItem.wideForms,AtomItem.otherCases]
namespace AtomItem
/-- The going through a list of atoms ends. Then the texts that agree with an atom, and no others, stand in its place,
each once. All atoms that are chosen for a pattern are proper. -/
theorem expandAll_parts :
 (∀ p,Accepted p → ∀ rule,∀ c∈((AtomTree.ofPattern rule p.root).choose rule).1,c.atom.Proper) ∧
 ∀ items:List AtomItem,(∀ x∈items,x.atom.Proper) →
  (∃ n,Traversal.visits n ⟨[],items⟩ = ⟨(expandAll items).reverse,[]⟩) ∧
  ∃ parts:List (List AtomItem),expandAll items = parts.flatten ∧
   List.Forall₂ (fun x part=>part.Nodup ∧ ∀ y,y ∈ part ↔ y.backtrack=x.backtrack ∧
    y.entry=x.entry ∧ List.Forall₂ (fun b c=>c.mask=255 ∧ c.value &&& b.mask = b.value)
     x.atom y.atom) items parts := by
 refine⟨fun p hp rule c hc=>?_,fun items h=>⟨?_,items.map forms,?_,?_⟩⟩
 ·exact (AtomTree.choose_ofPattern_short rule p.root hc).2.2 hp.digitMasks
 ·rw[expandAll_eq h]
  exact⟨_,Traversal.visits_items h⟩
 ·rw[expandAll_eq h,flatMap_def]
 ·rw[forall₂_map_right_iff,forall₂_same]
  exact fun x hx=>⟨x.nodup_forms,x.mem_forms (h x hx)⟩
def highDigit:Pattern:=⟨.cat [.masked 64 240,.literal 1 false],⟨true,true,false,false⟩⟩
theorem expandAll_parts_highDigit :
 (∀ c∈((AtomTree.ofPattern .heuristic highDigit.root).choose .heuristic).1,c.atom.Proper)∧
 let items:List AtomItem:=
  [⟨[⟨64,240⟩,⟨1,255⟩,⟨0,0⟩],3,⟨some 5,none⟩⟩,⟨[⟨64,240⟩,⟨1,255⟩],0,⟨none,none⟩⟩]
 ∃n,Traversal.visits n ⟨[],items⟩=⟨(expandAll items).reverse,[]⟩:=by
 have haccepted:Accepted highDigit:=.inr ⟨⟨#[123,52,63,48,49,125]⟩,by with_unfolding_all rfl⟩
 have hdigit:(64 &&& 240:UInt8)=64:=by decide
 refine⟨expandAll_parts.1 _ haccepted _,(expandAll_parts.2 _ ?_).1⟩
 rintro x (_|⟨_,_|⟨_,⟨⟩⟩⟩)
 all_goals simp[Atom.Proper,MaskedByte.Proper,MaskedByte.IsDigitMask,hdigit]
end AtomItem
end PatternScan