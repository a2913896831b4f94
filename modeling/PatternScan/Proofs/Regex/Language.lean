import PatternScan.Proofs.Regex.Derivation
import PatternScan.Proofs.Regex.Grammar
import PatternScan.Proofs.Regex.Lengths
/-! Which pieces of a text a pattern matches, said by the tree alone. -/
open Nat Bool
open PatternScan.Regex.Input Relation PatternScan.Bytes PatternScan.Limits
namespace PatternScan.Regex
open Machine (Verdict)
open Emission (leaf?)
variable {R:Nat→Nat→Prop}{B lo hi:Nat}{v:Nat→Inst→Verdict}
section
lemma times_one:Times R 1=R:=comp_eq
lemma times_add (m n:Nat):Times R (m+n)=Comp (Times R m) (Times R n):=by
 induction m with
 | zero=>rw[zero_add,Times,eq_comp]
 | succ m ih=>rw[succ_add,Times,Times,ih,comp_assoc]
lemma reflTransGen_iff_times {i j:Nat}:ReflTransGen R i j↔∃n,Times R n i j:=by
 constructor
 ·intro h
  induction h using ReflTransGen.head_induction_on with
  | refl=>exact⟨0,rfl⟩
  | head hk _ ih=>
   obtain⟨n,hn⟩:=ih
   exact⟨n+1,_,hk,hn⟩
 rintro⟨n,h⟩
 induction n generalizing i with
 | zero=>
  cases h
  exact .refl
 | succ n ih=>
  obtain⟨k,hk,hn⟩:=h
  exact .head hk (ih hn)
lemma reflTransGen_comp_times (n:Nat):
 Comp (ReflTransGen R) (Times R n)=Comp (Times R n) (ReflTransGen R):=by
 have hs:∀m i j,Comp (Times R m) (Times R n) i j↔Comp (Times R n) (Times R m) i j:=by
  intro m i j
  rw[←times_add,←times_add,add_comm]
 funext i j
 apply propext
 constructor
 ·rintro⟨k,hk,h⟩
  obtain⟨m,hm⟩:=reflTransGen_iff_times.1 hk
  obtain⟨l,hl,hm⟩:=(hs m i j).1 ⟨k,hm,h⟩
  exact⟨l,hl,reflTransGen_iff_times.2 ⟨m,hm⟩⟩
 ·rintro⟨k,hk,h⟩
  obtain⟨m,hm⟩:=reflTransGen_iff_times.1 h
  obtain⟨l,hl,hn⟩:=(hs m i j).2 ⟨k,hk,hm⟩
  exact⟨l,reflTransGen_iff_times.2 ⟨m,hl⟩,hn⟩
def Between (R:Nat→Nat→Prop)(lo hi i j:Nat):Prop:=∃n,lo≤n∧n≤hi∧Times R n i j
lemma between_self (n:Nat):Between R n n=Times R n:=by
 funext i j
 apply propext
 constructor
 ·rintro⟨m,hlo,hhi,h⟩
  rwa[show n=m by omega]
 ·exact fun h=>⟨n,le_rfl,le_rfl,h⟩
lemma between_zero_one:Between R 0 1=fun i j=>i=j∨R i j:=by
 funext i j
 apply propext
 constructor
 ·rintro⟨n,-,hn,h⟩
  rcases le_one_iff_eq_zero_or_eq_one.1 hn with rfl|rfl
  ·exact .inl h
  ·rw[times_one]at h
   exact .inr h
 ·rintro (h|h)
  ·exact⟨0,le_rfl,Nat.zero_le 1,h⟩
  ·exact⟨1,Nat.zero_le 1,le_rfl,by rwa[times_one]⟩
lemma comp_between {a b c d:Nat}(hab:a≤b)(hcd:c≤d):
 Comp (Between R a b) (Between R c d)=Between R (a+c) (b+d):=by
 funext i j
 apply propext
 constructor
 ·rintro⟨k,⟨m,ham,hmb,hm⟩,n,hcn,hnd,hn⟩
  exact⟨m+n,by omega,by omega,by rw[times_add];exact⟨k,hm,hn⟩⟩
 ·rintro⟨n,hlo,hhi,h⟩
  obtain⟨m,hm⟩:∃m,m=min b (n-c):=⟨_,rfl⟩
  rw[show n=m+(n-m) by omega,times_add]at h
  obtain⟨k,hk,h⟩:=h
  exact⟨k,⟨m,by omega,by omega,hk⟩,n-m,by omega,by omega,h⟩
lemma times_between_zero_one (n:Nat):Times (Between R 0 1) n=Between R 0 n:=by
 induction n with
 | zero=>rw[between_self];rfl
 | succ n ih=>rw[Times,ih,comp_between (Nat.zero_le 1) (Nat.zero_le n),add_comm 1 n]
def Advances (B:Nat)(R:Nat→Nat→Prop):Prop:=∀i j,R i j→i≤j∧(j=i∨j≤B)
namespace Advances
variable {S:Nat→Nat→Prop}
lemma eq:Advances B Eq:=fun _ _ h=>⟨h.le,.inl h.symm⟩
lemma comp (hR:Advances B R)(hS:Advances B S):Advances B (Comp R S):=by
 rintro i j ⟨k,hk,hj⟩
 have h1:=hR i k hk
 have h2:=hS k j hj
 omega
lemma times (hR:Advances B R)(n:Nat):Advances B (Times R n):=by
 induction n with
 | zero=>exact .eq
 | succ n ih=>exact hR.comp ih
lemma reflTransGen (hR:Advances B R):Advances B (ReflTransGen R):=by
 intro i j h
 obtain⟨n,hn⟩:=reflTransGen_iff_times.1 h
 exact hR.times n i j hn
lemma ite {p:Prop}[Decidable p](hR:Advances B R)(hS:Advances B S):Advances B (if p then R else S):=by
 split
 ·exact hR
 ·exact hS
end Advances
lemma times_shrink (hR:Advances B R)(n:Nat):∀m i j,Times R n i j→
 j-i ≤ m→m≤n→Times R m i j:=by
 induction n with
 | zero=>
  intro m i j h _ hm
  rw[le_zero.1 hm]
  exact h
 | succ n ih=>
  rintro m i j ⟨k,hk,h⟩ hm hn
  rcases (hR i k hk).1.eq_or_lt with rfl|hlt
  ·rcases le_succ_iff.1 hn with hn|rfl
   ·exact ih m i j h hm hn
   ·exact⟨i,hk,h⟩
  ·have hkj:=(hR.times n k j h).1
   obtain⟨m,rfl⟩:∃l,m=l+1:=⟨m-1,by omega⟩
   exact⟨k,hk,ih m k j h (by omega) (by omega)⟩
lemma comp_times_reflTransGen (hR:Advances B R)(hlo:lo≤hi)(hhi:B≤hi):
 Comp (Times R lo) (ReflTransGen R)=Between R lo hi:=by
 funext i j
 apply propext
 constructor
 ·rintro⟨k,hk,h⟩
  obtain⟨n,hn⟩:=reflTransGen_iff_times.1 h
  have ha:Times R (lo+n) i j:=by
   rw[times_add]
   exact⟨k,hk,hn⟩
  by_cases hle:lo+n≤hi
  ·exact⟨lo+n,by omega,hle,ha⟩
  ·have hj:=hR.times _ i j ha
   exact⟨hi,hlo,le_rfl,times_shrink hR _ _ _ _ ha (by omega) (by omega)⟩
 ·rintro⟨n,hn,-,h⟩
  rw[show n=lo+(n-lo) by omega,times_add]at h
  obtain⟨k,hk,h⟩:=h
  exact⟨k,hk,reflTransGen_iff_times.2 ⟨_,h⟩⟩
end
/-- Verdicts that treat a gap as dots, and read a limited number of characters. -/
structure Limited (v:Nat→Inst→Verdict):Prop extends Proper v where
 dot:∀i lo hi g,v i (.gap lo hi g)=v i .any
 reads:∀i q,v i q=.read→i<regexInput
lemma Inst.advances_spans (hv:Limited v)(q:Inst):
 Advances regexInput (q.spans v):=by
 intro i j h
 cases q with
 | gap _ _ g=>
  obtain⟨hij,-,-,hr⟩:=h
  refine⟨hij,?_⟩
  rcases hij.eq_or_lt with rfl|hlt
  ·exact .inl rfl
  ·have:=hv.reads (j-1) _ (hr (j-1) (by omega) (by omega))
   omega
 | _=>
  rcases h with⟨hre,rfl⟩|⟨-,rfl⟩
  ·have:=hv.reads i _ hre
   omega
  ·exact⟨le_rfl,.inl rfl⟩
namespace Node
variable {back:Bool}
lemma rest_eq (h:lo≤hi)(R:Nat→Nat→Prop):
 rest lo hi R=Between R (lo-if lo>0 then 1 else 0) (hi-if lo>0 then 1 else 0):=by
 have hrd:(if hasLoop lo hi then Rounds (loopLow lo hi) (loopHigh lo hi) R else Eq)=
  Between R (if hasLoop lo hi then loopLow lo hi else 0) (if hasLoop lo hi then loopHigh lo hi else 0):=by
  split
  ·rename_i hl
   have hh:max 1 (max (loopLow lo hi) (loopHigh lo hi))=loopHigh lo hi:=by
    simp only[hasLoop,or_eq_true,decide_eq_true_eq]at hl
    simp only[loopLow,loopHigh]
    split<;>split<;>omega
   funext i j
   rw[Rounds,Between,hh]
  ·rw[between_self]
   rfl
 have ht:(if hi>lo then fun i j=>i=j∨R i j else if hasEpilog lo hi then R else Eq)=
  Between R (if hi>lo then 0 else if hasEpilog lo hi then 1 else 0)
   (if hi>lo then 1 else if hasEpilog lo hi then 1 else 0):=by
  split
  ·rw[between_zero_one]
  split
  ·rw[between_self,times_one]
  ·rw[between_self]
   rfl
 rw[rest,hrd,ht,comp_between]
 ·congr 1
  ·simp only[hasLoop,hasEpilog,loopLow,or_eq_true,decide_eq_true_eq]
   split_ifs<;>omega
  ·simp only[hasLoop,hasEpilog,loopHigh,or_eq_true,decide_eq_true_eq]
   split_ifs<;>omega
 ·simp only[loopLow,loopHigh]
  split_ifs<;>omega
 ·split_ifs<;>omega
lemma spans_range (h:lo≤hi)(g:Bool)(e:Node):
 (range lo hi g e).Spans v back=Between (e.Spans v back) lo hi:=by
 rw[Spans,rest_eq h]
 by_cases hlo:lo>0
 ·rw[if_pos hlo,if_pos hlo]
  nth_rewrite 1 [←times_one (R:=e.Spans v back)]
  rw[←between_self,comp_between le_rfl (by omega)]
  congr 1<;>omega
 ·rw[if_neg hlo,if_neg hlo,eq_comp]
  rfl
lemma times_any (hv:Limited v)(n:Nat):∀i j,Times (Node.any.Spans v back) n i j↔
 j=i+n∧∀x,i≤x→x<j→v x .any=.read:=by
 have ha:∀i j,Node.any.Spans v back i j↔v i .any=.read∧j=i+1:=by
  intro i j
  have hp:v i .any≠.pass:=by
   rw[←hv.dot i 0 0 true]
   exact hv.gap _ _ _ _
  constructor
  ·rintro (h|⟨h,-⟩)
   ·exact h
   ·exact absurd h hp
  ·exact fun h=>.inl h
 induction n with
 | zero=>
  intro i j
  constructor
  ·rintro rfl
   exact⟨rfl,by omega⟩
  ·exact fun h=>h.1.symm
 | succ n ih=>
  intro i j
  constructor
  ·rintro⟨k,hk,h⟩
   grind
  ·rintro⟨rfl,h⟩
   refine⟨i+1,(ha _ _).2 ⟨h i le_rfl (by omega),rfl⟩,(ih _ _).2 ⟨by omega,?_⟩⟩
   exact fun x hx hx'=>h x (by omega) hx'
lemma spans_gap (hv:Limited v)(h:lo≤hi)(hhi:hi≤regexRepeat)
 (g:Bool):(gap lo hi g).Spans v back=Between (Node.any.Spans v back) lo hi:=by
 have hl:regexRepeat<65536:=by decide
 have hin:(gap lo hi g).Spans v back=(Inst.gap lo hi g).spans v:=by
  rw[←mod_eq_of_lt (show lo<65536 by omega),←mod_eq_of_lt (show hi<65536 by omega)]
  simp only[Spans,leaf?,mod_mod,Option.elim_some]
 rw[hin]
 funext i j
 apply propext
 constructor
 ·rintro⟨hij,hlo,hm,hr⟩
  refine⟨j-i,hlo,by omega,(times_any hv _ i j).2 ⟨by omega,fun x hx hx'=>?_⟩⟩
  rw[←hv.dot x lo hi g]
  exact hr x hx hx'
 ·rintro⟨n,hlo,hhi,h⟩
  obtain⟨rfl,hr⟩:=(times_any hv n i j).1 h
  refine⟨by omega,by omega,by omega,fun x hx hx'=>?_⟩
  rw[hv.dot]
  exact hr x hx hx'
lemma advances_rest (hR:Advances B R):Advances B (rest lo hi R):=by
 refine .comp (.ite ?_ .eq) (.ite ?_ (.ite hR .eq))
 ·rintro i j ⟨n,-,-,h⟩
  exact hR.times n i j h
 ·rintro i j (h|h)
  ·exact Advances.eq i j h
  ·exact hR i j h
lemma advances (hv:Limited v)(n:Node):Advances regexInput (n.Spans v back)∧
 Advances regexInput (n.Again v back):=by
 have hno:Advances regexInput fun _ _=>False:=fun _ _ h=>h.elim
 have hor:∀{R S:Nat→Nat→Prop},Advances regexInput R→
  Advances regexInput S→Advances regexInput fun i j=>R i j∨S i j:=
  fun hR hS i j h=>h.elim (hR i j) (hS i j)
 induction n using induction with
 | leaf n hn=>
  rw[hn.spans_eq,hn.again_eq]
  cases leaf? n with
  | none=>exact⟨.eq,hno⟩
  | some q=>exact⟨q.advances_spans hv,q.advances_spans hv⟩
 | cat _ ih=>exact ih
 | alt l r ihl ihr=>exact⟨hor ihl.1 ihr.1,hor ihl.1 ihr.1⟩
 | star g e ih=>exact⟨ih.1.reflTransGen,ih.1.reflTransGen⟩
 | plus g e ih=>exact⟨ih.1.comp ih.2.reflTransGen,ih.2.comp ih.2.reflTransGen⟩
 | range _ _ g e ih=>
  exact⟨.comp (.ite ih.1 .eq) (advances_rest ih.1),
   .ite (ih.2.comp (advances_rest ih.1)) (.ite (advances_rest ih.1) (.ite ih.2 hno))⟩
 | nil=>exact⟨.eq,hno⟩
 | cons n _ ihn ihns=>
  exact⟨.ite (ihns.1.comp ihn.1) (ihn.1.comp ihns.1),.ite (.ite ihn.2 (ihns.2.comp ihn.1)) (ihn.2.comp ihns.1)⟩
end Node
end PatternScan.Regex
namespace PatternScan.Regex
open Machine
open Emission (leaf?)
variable {T:Nat→Nat→Prop}{n:Node}{q:Inst}
structure Text where
 data:Bytes
 /-- Characters have two bytes, the second of them zero. -/
 wide:Bool
 comparison:Comparison
namespace Text
variable (x:Text)
def width:Nat:=if x.wide then 2 else 1
def HasCharacter (s:Nat):Prop:=
 s+x.width≤x.data.size∧(x.wide=true→x.data.byteAt (s+1)=0)
def Takes (n:Node)(s e:Nat):Prop:=
 e=s+x.width∧x.HasCharacter s∧n.takes x.comparison (x.data.byteAt s)=true
def WordAfter (s:Nat):Prop:=x.HasCharacter s∧isWord (x.data.byteAt s)=true
def WordBefore (s:Nat):Prop:=x.width ≤ s∧x.WordAfter (s-x.width)
end Text
namespace Node
mutual
/-- A pattern matches the piece of a text between two places. -/
def Occurs (x:Text):Node→Nat→Nat→Prop
 | .empty=>Eq
 | .start=>fun s e=>s=e∧s=0
 | .stop=>fun s e=>s=e∧s=x.data.size
 | .boundary=>fun s e=>s=e∧¬(x.WordBefore s↔x.WordAfter s)
 | .nonBoundary=>fun s e=>s=e∧(x.WordBefore s↔x.WordAfter s)
 | .gap lo hi _=>Between (x.Takes .any) lo hi
 | .cat parts=>OccursList x parts
 | .alt l r=>fun s e=>Occurs x l s e∨Occurs x r s e
 | .star _ n=>ReflTransGen (Occurs x n)
 | .plus _ n=>Comp (Occurs x n) (ReflTransGen (Occurs x n))
 | .range lo hi _ n=>Between (Occurs x n) lo hi
 | n=>x.Takes n
def OccursList (x:Text):List Node→Nat→Nat→Prop
 | []=>Eq
 | n::ns=>Comp (Occurs x n) (OccursList x ns)
end
mutual
def InOrder:Node→Prop
 | .gap lo hi _=>lo≤hi∧hi≤regexRepeat
 | .cat parts=>InOrderList parts
 | .alt l r=>l.InOrder∧r.InOrder
 | .star _ e | .plus _ e=>e.InOrder
 | .range lo hi _ e=>lo≤hi∧e.InOrder
 | _=>True
def InOrderList:List Node→Prop
 | []=>True
 | n::ns=>n.InOrder∧InOrderList ns
end
lemma Readable.inOrder (n:Node):n.Readable→n.InOrder:=by
 induction n using induction (Q:=fun ns=>ReadableList ns→InOrderList ns) with
 | leaf n hn=>
  intro h
  cases n with
  | gap=>exact h
  | cat | alt | star | plus | range=>exact hn.elim
  | _=>trivial
 | cat _ ih=>exact fun h=>ih h.2
 | alt l r ihl ihr=>
  rintro⟨hl,hr|rfl⟩
  ·exact⟨ihl hl,ihr hr⟩
  ·exact⟨ihl hl,trivial⟩
 | star g e ih=>exact ih
 | plus g e ih=>exact ih
 | range _ _ g e ih=>exact fun h=>⟨h.1,ih h.2.2⟩
 | nil _=>exact trivial
 | cons n _ ihn ihns h=>exact⟨ihn h.1,ihns h.2⟩
end Node
lemma limited_look (f:RunFlags)(inp:Input):Limited (look f inp) where
 toProper:=proper_look f inp
 dot _ _ _ _:=rfl
 reads i q h:=by
  have hlt:=look_read h
  have hle:i ≤ i*width f:=Nat.le_mul_of_pos_right i (width_pos f)
  have hr:reach f inp≤regexInput:=(sub_le _ _).trans (min_le_right _ _)
  omega
section
variable (f:RunFlags)(inp:Input)
def Input.text:Text:=⟨inp.data,f.wide,⟨f.ignoreCase,f.dotAll⟩⟩
def Input.place (i:Nat):Nat:=
 if f.backwards then inp.pos-i*width f else inp.pos+i*width f
def along (T:Nat→Nat→Prop):Nat→Nat→Prop:=if f.backwards then flip T else T
def Traces (R T:Nat→Nat→Prop):Prop:=
 ∀i j,i*width f≤reach f inp→R i j→j*width f≤reach f inp∧T (inp.place f i) (inp.place f j)
variable {f inp}{R S U:Nat→Nat→Prop}
namespace Traces
lemma eq:Traces f inp Eq Eq:=by
 rintro i j hi rfl
 exact⟨hi,rfl⟩
section
variable (hR:Traces f inp R T)
include hR
lemma comp (hS:Traces f inp S U):Traces f inp (Comp R S) (Comp T U):=by
 rintro i j hi ⟨k,hk,hj⟩
 obtain⟨hi',hT⟩:=hR i k hi hk
 obtain⟨hj',hU⟩:=hS k j hi' hj
 exact⟨hj',_,hT,hU⟩
lemma mono (h:∀s e,T s e→U s e):Traces f inp R U:=
 fun i j hi hj=>⟨(hR i j hi hj).1,h _ _ (hR i j hi hj).2⟩
lemma or (hS:Traces f inp S U):Traces f inp (fun i j=>R i j∨S i j) fun s e=>T s e∨U s e:=by
 rintro i j hi (h|h)
 ·exact⟨(hR i j hi h).1,.inl (hR i j hi h).2⟩
 ·exact⟨(hS i j hi h).1,.inr (hS i j hi h).2⟩
lemma times (n:Nat):Traces f inp (Times R n) (Times T n):=by
 induction n with
 | zero=>exact .eq
 | succ n ih=>exact hR.comp ih
lemma between (lo hi:Nat):Traces f inp (Between R lo hi) (Between T lo hi):=by
 rintro i j hi ⟨n,hlo,hhi,h⟩
 obtain⟨hj,hT⟩:=hR.times n i j hi h
 exact⟨hj,n,hlo,hhi,hT⟩
lemma reflTransGen:Traces f inp (ReflTransGen R) (ReflTransGen T):=by
 intro i j hi h
 obtain⟨n,hn⟩:=reflTransGen_iff_times.1 h
 obtain⟨hj,hT⟩:=hR.times n i j hi hn
 exact⟨hj,reflTransGen_iff_times.2 ⟨n,hT⟩⟩
end
lemma none:Traces f inp (fun _ _=>False) T:=fun _ _ _ h=>h.elim
end Traces
lemma along_comp:along f (Comp T U)=
 if f.backwards then Comp (along f U) (along f T) else Comp (along f T) (along f U):=by
 unfold along
 split
 ·exact flip_comp
 ·rfl
lemma along_eq:along f Eq=Eq:=by
 unfold along
 split
 ·funext s e
  exact propext eq_comm
 ·rfl
lemma along_times (n:Nat):along f (Times T n)=Times (along f T) n:=by
 induction n with
 | zero=>exact along_eq
 | succ n ih=>
  have hl:Comp (Times (along f T) n) (along f T)=Times (along f T) (n+1):=by rw[times_add,times_one]
  rw[Times,along_comp,ih,hl]
  exact ite_self _
lemma along_between (lo hi:Nat):along f (Between T lo hi)=Between (along f T) lo hi:=by
 have hb:along f (Between T lo hi)=fun s e=>∃n,lo≤n∧n≤hi∧along f (Times T n) s e:=by
  unfold along
  split<;>rfl
 rw[hb]
 simp only[along_times]
 rfl
lemma along_reflTransGen:along f (ReflTransGen T)=ReflTransGen (along f T):=by
 unfold along
 split
 ·funext s e
  exact propext Relation.reflTransGen_swap.symm
 ·rfl
lemma along_or:along f (fun s e=>T s e∨U s e)=fun s e=>along f T s e∨along f U s e:=by
 unfold along
 split<;>rfl
lemma along_self (P:Nat→Prop):along f (fun s e=>s=e∧P s)=fun s e=>s=e∧P s:=by
 unfold along
 split
 ·funext s e
  refine propext ⟨?_,?_⟩<;>rintro⟨rfl,h⟩<;>exact⟨rfl,h⟩
 ·rfl
end
def Node.IsCharacter:Node→Prop
 | .literal _ _ | .notLiteral _ | .masked _ _ | .maskedNot _ _ | .any | .wordChar | .nonWordChar
 | .space | .nonSpace | .digit | .nonDigit | .cls _=>True
 | _=>False
lemma Node.IsCharacter.verdict_eq (hn:n.IsCharacter)
 (hq:leaf? n=some q)(f:RunFlags)(v:View):verdict f v q=
  if !v.blocked&&n.takes ⟨f.ignoreCase,f.dotAll⟩ v.byte then .read else .die:=by
 cases n<;>first | exact hn.elim | cases hq
 all_goals rfl
section
variable {f:RunFlags}{inp:Input}{i:Nat}
lemma reach_dvd (f:RunFlags)(inp:Input):width f ∣ reach f inp:=dvd_sub_mod _
lemma succ_mul_le_reach (h:i*width f<reach f inp):(i+1)*width f≤reach f inp:=by
 obtain⟨k,hk⟩:=reach_dvd f inp
 rw[hk,mul_comm]at h⊢
 exact Nat.mul_le_mul_left _ (Nat.lt_of_mul_lt_mul_left h)
lemma place_le (hpos:inp.pos ≤ inp.data.size)(hi:i*width f≤reach f inp):
 if f.backwards then i*width f ≤ inp.pos
 else inp.pos+i*width f ≤ inp.data.size:=by
 have hr:reach f inp ≤ if f.backwards then inp.pos else inp.data.size-inp.pos:=
  (sub_le _ _).trans (min_le_left _ _)
 grind
lemma byteAtInt_natCast (b:Bytes)(s:Nat):b.byteAtInt (s:Int)=b.byteAt s:=by
 unfold byteAtInt
 rw[if_neg (by omega),Int.toNat_natCast]
def Input.ahead (f:RunFlags)(inp:Input)(i:Nat):Nat:=
 if f.backwards then inp.pos-(i+1)*width f else inp.pos+i*width f
section
variable (hi:(i+1)*width f≤reach f inp)(hpos:inp.pos ≤ inp.data.size)
include hi hpos
lemma along_ahead (h:T (inp.ahead f i) (inp.ahead f i+width f)):
 along f T (inp.place f i) (inp.place f (i+1)):=by
 have hle:=place_le hpos hi
 unfold along place
 unfold ahead at h
 rw[succ_mul]at *
 split
 ·rename_i hb
  rw[if_pos hb]at h hle
  rw[show inp.pos-(i*width f+width f)+width f=
   inp.pos-i*width f by omega]at h
  exact h
 ·rename_i hb
  rw[if_neg hb,add_assoc]at h
  exact h
lemma view_ahead:(view f inp (i*width f)).byte=inp.data.byteAt (inp.ahead f i)∧
 (view f inp (i*width f)).blocked=(f.wide&&inp.data.byteAt (inp.ahead f i+1)≠0):=by
 have hle:=place_le hpos hi
 have hh:(if f.backwards then (inp.pos:Int)-(i*width f:Nat)-width f
  else inp.pos+(i*width f:Nat))=(inp.ahead f i:Int):=by
  unfold ahead
  grind
 have hlt:¬reach f inp ≤ i*width f:=by
  have:=width_pos f
  rw[succ_mul]at hi
  omega
 unfold view
 dsimp only
 rw[hh]
 refine⟨rfl,?_⟩
 rw[decide_eq_false (show ¬i*width f≥reach f inp from hlt),Bool.false_or,
  show ((inp.ahead f i:Int)+1)=((inp.ahead f i+1:Nat):Int) from rfl,byteAtInt_natCast]
end
lemma Node.IsCharacter.traces (hn:n.IsCharacter)(hpos:inp.pos ≤ inp.data.size){back:Bool}:
 Traces f inp (n.Spans (look f inp) back) (along f ((inp.text f).Takes n)):=by
 intro i j hi h
 obtain⟨q,hq⟩:∃q,leaf? n=some q:=by cases n<;>first | exact hn.elim | exact⟨_,rfl⟩
 have hr:look f inp i q=.read∧j=i+1:=by
  have hv:=hn.verdict_eq hq f (view f inp (i*width f))
  have hs:look f inp i q=.read∧j=i+1∨look f inp i q=.pass∧j=i:=by cases n<;>first | exact hn.elim | cases hq;exact h
  rcases hs with h|⟨h,-⟩
  ·exact h
  ·rw[look,hv]at h
   split at h<;>cases h
 obtain⟨hr,rfl⟩:=hr
 have hi':=succ_mul_le_reach (look_read hr)
 obtain⟨hby,hb⟩:=view_ahead hi' hpos
 rw[look,hn.verdict_eq hq,hby,hb]at hr
 have ht:(!(f.wide&&inp.data.byteAt (inp.ahead f i+1)≠0) &&
  n.takes ⟨f.ignoreCase,f.dotAll⟩ (inp.data.byteAt (inp.ahead f i))):=by
  by_contra hne
  rw[if_neg hne]at hr
  cases hr
 rw[and_eq_true]at ht
 refine⟨hi',along_ahead hi' hpos ⟨rfl,⟨?_,?_⟩,ht.2⟩⟩
 ·have hle:=place_le hpos hi'
  change (if f.backwards then _ else _)+width f ≤ inp.data.size
  grind
 ·intro hw
  have hw:f.wide:=hw
  have hz:inp.data.byteAt (inp.ahead f i+1)=0:=by simpa[hw]using ht.1
  exact hz
lemma wordAt_natCast (s:Nat):wordAt inp.data (width f) s↔(inp.text f).WordAfter s:=by
 have hwi:width f=1↔f.wide≠true:=by
  unfold width
  split<;>simp_all
 have hne:(s:Int)+1=((s+1:Nat):Int):=rfl
 have hs:(s:Int)+width f ≤ inp.data.size↔s+width f ≤ inp.data.size:=by omega
 unfold wordAt
 rw[hne,byteAtInt_natCast,byteAtInt_natCast]
 simp only[and_eq_true,or_eq_true,decide_eq_true_eq,hs,hwi]
 constructor
 ·rintro⟨⟨⟨-,hr⟩,hwo⟩,hz⟩
  exact⟨⟨hr,fun hw=>hz.resolve_left fun h=>h hw⟩,hwo⟩
 ·rintro⟨⟨hr,hz⟩,hwo⟩
  refine⟨⟨⟨Int.natCast_nonneg s,hr⟩,hwo⟩,?_⟩
  by_cases hw:f.wide
  ·exact .inr (hz hw)
  ·exact .inl hw
lemma wordAt_before (s:Nat):wordAt inp.data (width f) ((s:Int)-width f)↔
  (inp.text f).WordBefore s:=by
 have hb:(inp.text f).WordBefore s↔width f ≤ s∧(inp.text f).WordAfter (s-width f):=Iff.rfl
 rw[hb]
 by_cases hle:width f ≤ s
 ·rw[show (s:Int)-width f=((s-width f:Nat):Int) by omega,wordAt_natCast]
  exact⟨fun h=>⟨hle,h⟩,fun h=>h.2⟩
 ·simp[wordAt,hle]
lemma view_words (hi:i*width f≤reach f inp)(hpos:inp.pos ≤ inp.data.size):
 let v:=view f inp (i*width f)
 v.wordBefore=v.wordHere↔((inp.text f).WordBefore (inp.place f i)↔(inp.text f).WordAfter (inp.place f i)):=by
 have hle:=place_le hpos hi
 rw[←wordAt_before,←wordAt_natCast,←Bool.eq_iff_iff]
 unfold view place
 grind
lemma view_first:(view f inp (i*width f)).first↔inp.place f i=0:=by
 unfold view place
 split
 ·rw[decide_eq_true_eq]
  omega
 ·rw[and_eq_true,decide_eq_true_eq,decide_eq_true_eq]
  omega
lemma view_last (hb:f.backwards=false)(hi:i*width f≤reach f inp)(hpos:inp.pos ≤ inp.data.size):
 (view f inp (i*width f)).last↔inp.place f i=inp.data.size:=by
 have hle:=place_le hpos hi
 unfold view place
 grind
lemma traces_test {P:Nat→Prop}(ok:View→Bool)(hq:∀v,verdict f v q=if ok v then .pass else .die)
 (h:∀i,i*width f≤reach f inp → ok (view f inp (i*width f))→P (inp.place f i)):
 Traces f inp (fun i j=>look f inp i q=.read∧j=i+1∨look f inp i q=.pass∧j=i)
  (along f fun s e=>s=e∧P s):=by
 rw[along_self]
 rintro i j hi (⟨hr,-⟩|⟨hp,rfl⟩)
 ·rw[look,hq]at hr
  split at hr<;>cases hr
 ·refine⟨hi,rfl,h j hi ?_⟩
  rw[look,hq]at hp
  by_contra hok
  rw[if_neg hok]at hp
  cases hp
end
namespace Node
variable {f:RunFlags}{inp:Input}
section
variable (hn:n.IsLeaf)(hord:n.InOrder)(hpos:inp.pos ≤ inp.data.size)(back:Bool)
include hn hord hpos back
lemma IsLeaf.traces:Traces f inp (n.Spans (look f inp) back) (along f (n.Occurs (inp.text f))):=by
 cases n with
 | empty=>
  rw[Occurs,along_eq]
  exact .eq
 | start=>exact traces_test View.first (fun _=>rfl) fun i _=>view_first.1
 | stop=>
  refine traces_test View.last (fun _=>rfl) fun i hi hl=>?_
  have hb:f.backwards=false:=by
   simp only[view,and_eq_true,not_eq_true']at hl
   exact hl.1
  exact (view_last hb hi hpos).1 hl
 | boundary=>
  refine traces_test (fun v=>v.wordBefore != v.wordHere) (fun _=>rfl) fun i hi hne=>?_
  exact (not_congr (view_words hi hpos)).1 (bne_iff_ne.1 hne)
 | nonBoundary=>
  refine traces_test (fun v=>v.wordBefore==v.wordHere) (fun _=>rfl) fun i hi heq=>?_
  exact (view_words hi hpos).1 (beq_iff_eq.1 heq)
 | gap lo hi g=>
  rw[spans_gap (limited_look f inp) hord.1 hord.2,Occurs,along_between]
  exact (IsCharacter.traces (n:=.any) trivial hpos).between lo hi
 | cat | alt | star | plus | range=>exact hn.elim
 | _=>exact IsCharacter.traces (by trivial) hpos
lemma IsLeaf.again_traces:Traces f inp (n.Again (look f inp) back) (along f (n.Occurs (inp.text f))):=by
 have hs:=hn.traces hord hpos back (f:=f)
 rw[hn.spans_eq]at hs
 rw[hn.again_eq]
 cases hl:leaf? n with
 | none=>exact .none
 | some q=>
  rw[hl]at hs
  exact hs
end
lemma along_plus {g:Bool}{e:Node}{x:Text}:along f ((plus g e).Occurs x)=
 Comp (along f (e.Occurs x)) (ReflTransGen (along f (e.Occurs x))):=by
 rw[Occurs,along_comp,along_reflTransGen]
 split
 ·have hs:=reflTransGen_comp_times (R:=along f (e.Occurs x)) 1
  rwa[times_one]at hs
 ·rfl

/-- The code of a pattern takes a run over pieces that the pattern matches, also from the address that counts as the
first one. -/
lemma traces (hpos:inp.pos ≤ inp.data.size)(n:Node):n.InOrder→
 Traces f inp (n.Spans (look f inp) f.backwards) (along f (n.Occurs (inp.text f)))∧
 Traces f inp (n.Again (look f inp) f.backwards) (along f (n.Occurs (inp.text f))):=by
 induction n using induction (Q:=fun ns=>InOrderList ns→
  Traces f inp (SpansList (look f inp) f.backwards ns) (along f (OccursList (inp.text f) ns))∧
  Traces f inp (AgainList (look f inp) f.backwards ns) (along f (OccursList (inp.text f) ns))) with
 | leaf n hn=>exact fun h=>⟨hn.traces h hpos _,hn.again_traces h hpos _⟩
 | cat _ ih=>exact ih
 | alt l r ihl ihr=>
  rintro⟨hl,hr⟩
  rw[Occurs,along_or]
  exact⟨(ihl hl).1.or (ihr hr).1,(ihl hl).1.or (ihr hr).1⟩
 | star g e ih=>
  intro h
  rw[Occurs,along_reflTransGen]
  exact⟨(ih h).1.reflTransGen,(ih h).1.reflTransGen⟩
 | plus g e ih=>
  intro h
  rw[along_plus]
  exact⟨(ih h).1.comp (ih h).2.reflTransGen,(ih h).2.comp (ih h).2.reflTransGen⟩
 | range lo hi g e ih=>
  rintro⟨hle,h⟩
  rw[spans_range hle,Occurs,along_between]
  refine⟨(ih h).1.between lo hi,?_⟩
  have ho:Between (along f (e.Occurs (inp.text f))) 1 1=along f (e.Occurs (inp.text f)):=by
   rw[between_self,times_one]
  rw[Again,rest_eq hle]
  split
  ·have hf:=(ih h).2.comp ((ih h).1.between (lo-1) (hi-1))
   nth_rewrite 1 [←ho]at hf
   rw[comp_between le_rfl (by omega),Nat.add_sub_cancel' (by omega),Nat.add_sub_cancel' (by omega)]at hf
   exact hf
  split
  ·exact (ih h).1.between lo hi
  split
  ·rename_i hlo _ he
   refine (ih h).2.mono fun s e hse=>⟨1,by omega,?_,by rwa[times_one]⟩
   simp only[hasEpilog,or_eq_true,decide_eq_true_eq]at he
   omega
  ·exact .none
 | nil _=>
  rw[OccursList,along_eq]
  exact⟨.eq,.none⟩
 | cons n _ ihn ihns h=>
  rw[SpansList,AgainList,OccursList,along_comp]
  split
  ·refine⟨(ihns h.2).1.comp (ihn h.1).1,?_⟩
   split
   ·rename_i hni
    rw[List.isEmpty_iff.1 hni,OccursList,along_eq,eq_comp]
    exact (ihn h.1).2
   ·exact (ihns h.2).2.comp (ihn h.1).1
  ·exact⟨(ihn h.1).1.comp (ihns h.2).1,(ihn h.1).2.comp (ihns h.2).1⟩
end Node
/-- Every length that a run of the code of a pattern reports is that of a piece of the text that the pattern matches
and that starts, or backwards ends, where the run starts. -/
theorem occurs_of_mem_run {text:Bytes} {strict:Bool} {r:Reading}
 (hread:read text strict = .ok r) {back:Bool} {code code':Code}
 {entries entries':Array Entry}
 (hemit:r.pattern.emit back code entries = .ok (code',entries'))
 {c:Code} (hc:∀ x < code'.size,c.fetch x = code'.fetch x) {f:RunFlags}
 (hback:f.backwards=back) (hsearch:f.search=false) {inp:Input}
 (hpos:inp.pos ≤ inp.data.size) (hfirm:Firm c f inp code.size) {n:Nat}
 (hn:n ∈ (run c code.size f inp).lengths) :
 if back then n ≤ inp.pos ∧ r.pattern.root.Occurs (inp.text f) (inp.pos-n) inp.pos
 else inp.pos+n ≤ inp.data.size ∧
  r.pattern.root.Occurs (inp.text f) inp.pos (inp.pos+n) := by
 subst hback
 obtain⟨hstd,hsize,-,-⟩:=Pattern.emit_stands hemit
 have hstd:=hstd.congr fun x _ hx=>hc x (by omega)
 obtain⟨i,j,hi,hspans,rfl⟩:=(hstd.found_iff (.start _ _) n).mp (found_of_mem_run hfirm hn)
 obtain rfl:i=0:=hi.resolve_right fun h=>false_ne_true (hsearch.symm.trans h.1)
 have htraces:=(Node.traces (f:=f) hpos _ (Node.Readable.inOrder _ (read_readable hread))).1
 obtain⟨hj,hocc⟩:=htraces 0 j (by rw[zero_mul];exact zero_le) hspans
 have hle:=place_le hpos hj
 unfold along Input.place at hocc
 rw[zero_mul]at hocc
 split
 ·rename_i hb
  rw[if_pos hb]at hle
  rw[if_pos hb,if_pos hb,if_pos hb]at hocc
  exact⟨hle,hocc⟩
 ·rename_i hb
  rw[if_neg hb]at hle
  rw[if_neg hb,if_neg hb,if_neg hb]at hocc
  exact⟨hle,hocc⟩
def xWord:Pattern:=
 ⟨.cat [.boundary,.literal 120 true,.plus true (.alt (.cat [.literal 97 true]) (.cat [.literal 98 true]))],⟨false,false,true,false⟩⟩
def xWordCode:Code:=xWord.code true
def xWordInput:Input:=⟨⟨#[32,0,88,0,97,0,66,0]⟩,8⟩
def xWordFlags:RunFlags:=⟨true,true,true,true,false,false⟩
theorem xWord_occurs_of_run : 6∈(run xWordCode 0 xWordFlags xWordInput).lengths∧
 xWord.root.Occurs ⟨⟨#[32,0,88,0,97,0,66,0]⟩,true,⟨true,false⟩⟩ 2 8:=by
 have hre:read ⟨#[92,98,120,40,97,124,98,41,43]⟩ false=.ok ⟨xWord,false⟩:=by with_unfolding_all rfl
 have hem:xWord.emit true .empty #[]=.ok (xWordCode,#[]):=rfl
 have hrun:6∈(run xWordCode 0 xWordFlags xWordInput).lengths:=by decide +kernel
 have hfi:xWordCode.Firm:=Code.firm_of_still (by decide)
 exact⟨hrun,(occurs_of_mem_run hre hem (fun _ _=>rfl) rfl rfl (by decide) hfi.run hrun).2⟩

/-- A thread that is taken again behind a test goes on, with those before it, one byte later. -/
theorem mem_run_not_occurs :
 let p:Pattern:=⟨.cat [.start,.star true (.cat [.star false (.literal 97 true)]),
  .alt (.cat [.literal 99 true]) (.cat [.literal 98 true])],⟨false,false,true,true⟩⟩
 read ⟨#[94,40,97,42,63,41,42,40,99,124,98,41]⟩ false=.ok ⟨p,false⟩∧
 (run (p.code false) 0 (.ofNat 8) ⟨⟨#[120,99]⟩,0⟩).lengths=#[2]∧
 ¬p.root.Occurs ⟨⟨#[120,99]⟩,false,⟨false,false⟩⟩ 0 2:=by
 have hstay {r:Nat→Nat→Prop}(h:∀e,r 0 e→e=0)(m:Nat)(hm:ReflTransGen r 0 m):m=0:=by
  induction hm with
  | refl=>rfl
  | tail _ hr ih=>exact h _ (ih▸hr)
 refine⟨by with_unfolding_all rfl,by decide +kernel,?_⟩
 rintro⟨_,⟨rfl,-⟩,m,hm,_,h,rfl⟩
 obtain rfl:m=0:=by
  refine hstay ?_ m hm
  rintro e ⟨_,h,rfl⟩
  exact hstay (fun e h=>absurd h.2.2 (by decide)) _ h
 rcases h with⟨_,h,rfl⟩|⟨_,h,rfl⟩<;>exact absurd h.1 (by decide)
end PatternScan.Regex
