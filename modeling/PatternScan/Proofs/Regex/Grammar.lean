import PatternScan.Regex.Parser
import PatternScan.Proofs.Except
import PatternScan.Proofs.Regex.Layout
/-! The trees that are read have parts in their concatenations, bounds in order and no empty first branch. -/
namespace PatternScan.Regex
open Yields (ite)
open List Token Reader Except.ok Limits
variable {t:Token}{nx:Nat}{o:Except ReadError Lexeme}{g:Bool}
mutual
def Node.Readable:Node→Prop
 | .masked _ _ | .maskedNot _ _ | .notLiteral _ | .empty=>False
 | .gap lo hi _=>lo≤hi∧hi≤regexRepeat
 | .cat parts=>parts≠[]∧ReadableList parts
 | .alt l r=>l.Readable∧(r.Readable∨r=.empty)
 | .star _ e | .plus _ e=>e.Readable
 | .range lo hi _ e=>lo≤hi∧hi≤regexRepeat∧e.Readable
 | _=>True
def Node.ReadableList:List Node→Prop
 | []=>True
 | n::ns=>n.Readable∧ReadableList ns
end
lemma Node.readableList_iff (ns:List Node):ReadableList ns↔∀n∈ns,n.Readable:=by
 induction ns with
 | nil=>simp[ReadableList]
 | cons n _ ih=>simp[ReadableList,ih]
mutual
def Node.counts:Node→List (Nat×Nat)
 | .gap lo hi _=>[(lo,hi)]
 | .cat parts=>countsList parts
 | .alt l r=>l.counts++r.counts
 | .star _ e | .plus _ e=>e.counts
 | .range lo hi _ e=>e.counts++[(lo,hi)]
 | _=>[]
def Node.countsList:List Node→List (Nat×Nat)
 | []=>[]
 | n::ns=>n.counts++countsList ns
end
lemma Node.countsList_append (ns:List Node)(n:Node):countsList (ns++[n])=countsList ns++n.counts:=by
 induction ns with
 | nil=>simp[countsList]
 | cons m _ ih=>simp[countsList,ih]

/-- A number is taken as itself, or as its last 32 bits if it has more than these and less than 63. -/
def Taken (n k:Nat):Prop:=k=n∨2 ^ 32≤n∧n<2 ^ 63-1∧k=n%2 ^ 32
def ReadAs (written read:Nat×Nat):Prop:=Taken written.1 read.1∧Taken written.2 read.2
lemma ReadAs.exactly {n k:Nat}(h:Taken n k):ReadAs (n,n) (k,k):=⟨h,h⟩
namespace Token
variable {src:Bytes}{i:Nat}
/-- What stands between braces from an index on: the least and the largest number of times. -/
inductive Written (src:Bytes)(i:Nat):Nat→Nat×Nat→Prop
 | exactly (some:0<src.digitsFrom i)(closes:src.byteAt (i+src.digitsFrom i)=125):
  Written src i (i+src.digitsFrom i+1) (src.decimal i (src.digitsFrom i),src.decimal i (src.digitsFrom i))
 | between {comma high:Nat}(before:∀k,i+src.digitsFrom i≤k→k<comma→src.byteAt k=32)
  (divides:src.byteAt comma=44)(behind:∀k,comma<k→k<high→src.byteAt k=32)
  (closes:src.byteAt (high+src.digitsFrom high)=125):
  Written src i (high+src.digitsFrom high+1) (src.decimal i (src.digitsFrom i),
   if src.digitsFrom high=0 then regexRepeat else src.decimal high (src.digitsFrom high))
lemma skipBlanks_blank (f:Nat):∀i k,i≤k→k<skipBlanks src f i→src.byteAt k=32:=by
 induction f with
 | zero=>exact fun i k hi hk=>absurd (lt_of_le_of_lt hi hk) (lt_irrefl i)
 | succ f ih=>
  intro i k hi hk
  rw[skipBlanks]at hk
  grind
lemma taken_decimal32 {src:Bytes}{i:Nat}(h:0 ≤ src.decimal32 i):
 Taken (src.decimal i (src.digitsFrom i)) (src.decimal32 i).toNat:=by
 have hw:(1 <<< 32:Nat)=4294967296:=rfl
 simp only[Bytes.decimal32,signed,Int.bmod_def,hw,Taken]at h⊢
 omega
def counts:Token→List (Nat×Nat)
 | .interval lo hi=>[(lo,hi)]
 | _=>[]
def Bounded:Token→Prop
 | .interval lo hi=>lo≤hi∧hi≤regexRepeat
 | _=>True
def Shows (src:Bytes)(i next:Nat):Token→Prop
 | .interval lo hi=>(lo≤hi∧hi≤regexRepeat)∧src.byteAt i=123∧
  ∃w,Written src (i+1) next w∧ReadAs w (lo,hi)
 | .done=>src.byteAt next=0
 | _=>True
abbrev Reads (src:Bytes)(i:Nat):Except ReadError Lexeme→Prop:=
 Yields fun l=>l.token.Shows src i l.next
lemma reads_ok (h:t.Shows src i nx)
 (u:Bool):Reads src i (.ok ⟨t,nx,u⟩):=yields_ok h
lemma reads_members (src:Bytes)(k:Nat)(strict ng:Bool)(f:Nat):
 ∀i unknown set,Reads src k (members src strict ng f i unknown set):=by
 induction f with
 | zero=>exact fun _ _ _=>yields_error _ _
 | succ f ih=>
  intro i unknown set
  refine (yields_error _ _).ite ((reads_ok (t:=.cls _) trivial _).ite ?_)
  split
  ·refine Yields.bind fun lo _=>?_
   split
   ·exact Yields.bind fun _ _=>Yields.bind fun _ _=>(yields_error _ _).ite (ih _ _ _)
   ·exact Yields.bind fun _ _=>(yields_error _ _).ite (ih _ _ _)
  ·refine ite ?_ ((ih _ _ _).ite ((ih _ _ _).ite (yields_error _ _)))
   dsimp only
   split
   ·exact ih _ _ _
   ·exact Yields.bind fun _ _=>ih _ _ _
lemma reads_bounds {n m:Nat}{lo hi:Int}(ho:src.byteAt i=123)
 (hw:Written src (i+1) nx (n,m))(hn:0≤lo→Taken n lo.toNat)
 (hm:0≤hi→Taken m hi.toNat):
 Reads src i (Option.getD (if hi>regexRepeat then some (.error .intervalTooLarge)
  else if hi<lo||hi<0||lo<0 then some (.error .badInterval)
  else some (.ok ⟨.interval lo.toNat hi.toNat,nx,false⟩)) o):=by
 split
 ·exact yields_error _ _
 split
 ·exact yields_error _ _
 ·rename_i h
  simp only[Bool.or_eq_true,decide_eq_true_eq]at h
  have hle:lo.toNat≤hi.toNat∧hi.toNat≤regexRepeat:=by omega
  exact reads_ok (t:=.interval _ _) ⟨hle,ho,_,hw,hn (by omega),hm (by omega)⟩ _
lemma reads_interval (hi:src.byteAt i=123)(ho:Reads src i o):
 Reads src i ((interval? src (i+1)).getD o):=by
 unfold interval?
 dsimp only
 split
 ·next h=>
  simp only[Bool.and_eq_true,decide_eq_true_eq]at h
  split
  ·exact yields_error _ _
  ·next hn=>
   simp only[Bool.or_eq_true,decide_eq_true_eq]at hn
   have hr:=ReadAs.exactly (@taken_decimal32 src (i+1) (by omega))
   have hle:(src.decimal32 (i+1)).toNat≤regexRepeat:=by omega
   exact reads_ok (t:=.interval _ _) ⟨⟨le_rfl,hle⟩,hi,_,.exactly (by omega) h.2,hr⟩ _
 by_cases hc:src.byteAt (skipBlanks src src.size (i+1+src.digitsFrom (i+1)))=44
 ·rw[if_neg (not_not.2 hc)]
  generalize hh:skipBlanks src src.size (skipBlanks src src.size (i+1+src.digitsFrom (i+1))+1)=hig
  split
  ·exact ho
  next hcl=>
  refine reads_bounds hi (.between (skipBlanks_blank _ _) hc
   (fun k hk hk'=>skipBlanks_blank _ _ k hk (hh▸hk')) (not_not.1 hcl)) taken_decimal32 ?_
  by_cases hd:src.digitsFrom hig=0
  ·rw[if_pos (by omega),if_pos hd]
   exact fun _=>.inl rfl
  ·rw[if_neg (by omega),if_neg hd]
   exact taken_decimal32
 ·rw[if_pos hc]
  exact ho
lemma reads_read (src:Bytes)(strict:Bool)(i:Nat):Reads src i (read src strict i):=by
 have plain:∀t next u,t.Shows src i next→Reads src i (.ok ⟨t,next,u⟩):=
  fun _ _ u h=>reads_ok h u
 refine Yields.cases (fun h=>plain .done _ _ h) fun _=>?_
 refine Yields.cases (fun h=>reads_interval h (plain (.byte _ _) _ _ trivial)) fun _=>?_
 refine ite ?_ (ite ?_ ?_)
 ·exact ((reads_members _ _ _ _ _ _ _ _).ite (reads_members _ _ _ _ _ _ _ _)).ite
   ((reads_members _ _ _ _ _ _ _ _).ite (reads_members _ _ _ _ _ _ _ _))
 ·refine (plain .wordChar _ _ trivial).ite ((plain .nonWordChar _ _ trivial).ite
   ((plain .space _ _ trivial).ite ((plain .nonSpace _ _ trivial).ite
   ((plain .digit _ _ trivial).ite ((plain .nonDigit _ _ trivial).ite
   ((plain .boundary _ _ trivial).ite ((plain .nonBoundary _ _ trivial).ite
   ((yields_error _ _).ite ?_))))))))
  cases escape src strict (i+1) with
  | error e=>exact yields_error _ e
  | ok e=>exact plain (.byte _ _) _ _ trivial
 ·exact (plain .open _ _ trivial).ite ((plain .close _ _ trivial).ite
   ((plain .bar _ _ trivial).ite ((plain .dollar _ _ trivial).ite
   ((plain .dot _ _ trivial).ite ((plain .caret _ _ trivial).ite
   ((plain .plus _ _ trivial).ite ((plain .star _ _ trivial).ite
   ((plain .question _ _ trivial).ite (plain (.byte _ _) _ _ trivial)))))))))
end Token
/-- A text has been cut into tokens up to an index, with these counts between braces. -/
inductive Scanned (src:Bytes)(strict:Bool):Nat→List (Nat×Nat)→Prop
 | start:Scanned src strict 0 []
 | count {i next:Nat}{ws:List (Nat×Nat)}{w:Nat×Nat}(before:Scanned src strict i ws)
  (opens:src.byteAt i=123)(written:Written src (i+1) next w):
  Scanned src strict next (ws++[w])
 | other {i:Nat}{ws:List (Nat×Nat)}{l:Lexeme}(before:Scanned src strict i ws)
  (read:Token.read src strict i=.ok l)(plain:l.token.counts=[]):Scanned src strict l.next ws
namespace Reader
variable {r r':Reader}{n:Node}
/-- The counts in a text that a reader has gone past, the one in its token excepted. -/
def Past (src:Bytes)(strict:Bool)(ks:List (Nat×Nat))(r:Reader):Prop:=
 r.src=src∧r.strict=strict∧(r.token=.done→src.byteAt r.pos=0)∧
  ∃ws,Scanned src strict r.pos ws∧Forall₂ ReadAs ws (ks++r.token.counts)

/-- Where the counts that a reader is past are among those of what has been built, they still are after more is built.
-/
def Gathers (pre:List (Nat×Nat))(r:Reader)(post:List (Nat×Nat))(r':Reader):Prop:=
 ∀src strict front ks,r.Past src strict ks→ks.Sublist (front++pre)→
  ∃ks',r'.Past src strict ks'∧ks'.Sublist (front++post)
section
variable {pre mid post:List (Nat×Nat)}{r1 r2:Reader}
lemma Gathers.refl (r:Reader)(pre:List (Nat×Nat)):Gathers pre r pre r:=
 fun _ _ _ ks hr hk=>⟨ks,hr,hk⟩
lemma Gathers.trans (h:Gathers pre r mid r1)(h':Gathers mid r1 post r2):Gathers pre r post r2:=by
 intro src strict front ks hr hk
 obtain⟨ks,hr,hk⟩:=h src strict front ks hr hk
 exact h' src strict front ks hr hk
lemma Gathers.mono (h:Gathers pre r mid r1)(hp:mid.Sublist post):Gathers pre r post r1:=by
 intro src strict front ks hr hk
 obtain⟨ks,hr,hk⟩:=h src strict front ks hr hk
 exact⟨ks,hr,hk.trans (hp.append_left front)⟩
lemma Gathers.append (h:Gathers pre r post r1)(front:List (Nat×Nat)):Gathers (front++pre) r (front++post) r1:=by
 intro src strict front' ks hr hk
 rw[←append_assoc]at hk⊢
 exact h src strict _ ks hr hk
lemma past_advance {ws ks:List (Nat×Nat)}(hsc:Scanned r.src r.strict r.pos ws)
 (ha:Forall₂ ReadAs ws ks)(h:r.advance=.ok r1):r1.Past r.src r.strict ks:=by
 obtain⟨l,hl,h⟩:=bind_eq_ok.1 h
 cases h
 have hs:l.token.Shows r.src r.pos l.next:=reads_read _ _ _ l hl
 refine⟨rfl,rfl,?_⟩
 dsimp only
 cases ht:l.token with
 | interval _ _=>
  rw[ht]at hs
  obtain⟨-,ho,w,hw,hr⟩:=hs
  exact⟨nofun,_,.count hsc ho hw,rel_append ha (.cons hr .nil)⟩
 | _=>
  refine⟨fun h=>?_,ws,.other hsc hl (by rw[ht];rfl),(append_nil ks).symm▸ha⟩
  rw[ht,h]at hs
  exact hs
lemma Gathers.advance (h:r.advance=.ok r1):Gathers pre r (pre++r.token.counts) r1:=by
 rintro src strict front ks ⟨rfl,rfl,-,ws,hs,ha⟩ hk
 exact⟨_,past_advance hs ha h,append_assoc ..▸hk.append_right _⟩
lemma gathers_greed (h:r.greed=.ok (g,r1)):Gathers pre r pre r1:=by
 unfold greed at h
 split at h
 ·next ht=>
  obtain⟨r',h',h⟩:=bind_eq_ok.1 h
  cases h
  simpa[ht,counts]using (Gathers.advance h':Gathers pre ..)
 ·cases h
  exact .refl r pre
lemma gathers_noteGreed (r:Reader)(g:Bool):Gathers pre r pre (r.noteGreed g):=by
 unfold noteGreed
 split<;>exact .refl r pre
end
lemma advance_bounded (h:r.advance=.ok r'):r'.token.Bounded:=by
 obtain⟨l,hl,h⟩:=bind_eq_ok.1 h
 cases h
 have hs:l.token.Shows r.src r.pos l.next:=reads_read _ _ _ l hl
 cases ht:l.token with
 | interval _ _=>
  rw[ht]at hs
  exact hs.1
 | _=>trivial

/-- A reader has built a tree from what it read and what was built before, which is not made linear. -/
structure Built (pre:List (Nat×Nat))(r:Reader)(n:Node)(r':Reader):Prop where
 readable:n.Readable
 linear:r.traits.linear=false → r'.traits.linear=false
 gathers:Gathers pre r n.counts r'
lemma Built.trans {pre mid:List (Nat×Nat)}{r r1 r2:Reader}{n:Node}
 (hl:r.traits.linear=false → r1.traits.linear=false)(hg:Gathers pre r mid r1)
 (h:Built mid r1 n r2):Built pre r n r2:=
 ⟨h.readable,h.linear ∘ hl,hg.trans h.gathers⟩
lemma advance_traits (h:r.advance=.ok r'):r'.traits=r.traits:=by
 obtain⟨l,hl,h⟩:=bind_eq_ok.1 h
 cases h
 rfl
lemma Built.advance {pre:List (Nat×Nat)}{r r1 r2:Reader}{n:Node}(h:r.advance=.ok r1)
 (ht:r.token.counts=[])(hb:Built pre r1 n r2):Built pre r n r2:=by
 refine .trans (fun hl=>advance_traits h▸hl) ?_ hb
 simpa[ht]using (Gathers.advance h:Gathers pre ..)
lemma greed_traits (h:r.greed=.ok (g,r')):r'.traits=r.traits:=by
 unfold greed at h
 split at h
 ·obtain⟨r1,h1,h⟩:=bind_eq_ok.1 h
  cases h
  exact advance_traits h1
 ·cases h
  rfl
lemma noteGreed_linear (r:Reader)(g:Bool):(r.noteGreed g).traits.linear=r.traits.linear:=by
 unfold noteGreed
 split<;>rfl
lemma bounded_built (hn:n.Readable){lo hi:Nat}(hle:lo≤hi)(hhi:hi≤regexRepeat)(r:Reader)(g:Bool):
 Built (n.counts++[(lo,hi)]) r (r.bounded n lo hi g).1 (r.bounded n lo hi g).2:=by
 unfold bounded
 split
 ·exact⟨⟨hle,hhi⟩,(noteGreed_linear r g).trans,gathers_noteGreed r g⟩
 ·exact⟨⟨hle,hhi,hn⟩,fun _=>rfl,gathers_noteGreed r g⟩
lemma repetition_built {n':Node}(hr:r.token.Bounded)(hn:n.Readable)
 (h:r.repetition n=.ok (n',r')):Built n.counts r n' r':=by
 have hre:∀{r1 r2 g},r.advance=.ok r1 → r1.greed=.ok (g,r2)→
  (r.traits.linear=false → r2.traits.linear=false)∧
  Gathers n.counts r (n.counts++r.token.counts) r2:=fun h1 h2=>
  ⟨fun hl=>by rw[greed_traits h2,advance_traits h1];exact hl,(Gathers.advance h1).trans (gathers_greed h2)⟩
 have hlo:∀{r1 r2 g},r.token.counts=[] → r.advance=.ok r1 → r1.greed=.ok (g,r2)→
  Gathers n.counts r n.counts (r2.noteGreed g).notLinear:=fun ht h1 h2=>
  (ht▸(hre h1 h2).2.trans (gathers_noteGreed _ _)).mono (by simp)
 rw[repetition]at h
 split at h
 ·next ht=>
  obtain⟨r1,h1,h⟩:=bind_eq_ok.1 h
  obtain⟨⟨g,r2⟩,h2,h⟩:=bind_eq_ok.1 h
  cases h
  exact⟨hn,fun _=>rfl,hlo (by rw[ht];rfl) h1 h2⟩
 ·next ht=>
  obtain⟨r1,h1,h⟩:=bind_eq_ok.1 h
  obtain⟨⟨g,r2⟩,h2,h⟩:=bind_eq_ok.1 h
  cases h
  exact⟨hn,fun _=>rfl,hlo (by rw[ht];rfl) h1 h2⟩
 ·next ht=>
  obtain⟨r1,h1,h⟩:=bind_eq_ok.1 h
  obtain⟨⟨g,r2⟩,h2,h⟩:=bind_eq_ok.1 h
  have hb:=bounded_built hn (Nat.zero_le 1) (by decide) r2 g
  rw[inj h]at hb
  refine .trans (hre h1 h2).1 ((hre h1 h2).2.mono ?_) hb
  simp[ht,counts]
 ·next lo hi ht=>
  rw[ht]at hr
  obtain⟨r1,h1,h⟩:=bind_eq_ok.1 h
  obtain⟨⟨g,r2⟩,h2,h⟩:=bind_eq_ok.1 h
  have hb:=bounded_built hn hr.1 hr.2 r2 g
  rw[inj h]at hb
  refine .trans (hre h1 h2).1 ((hre h1 h2).2.mono ?_) hb
  simp[ht,counts]
 ·cases h
  exact⟨hn,id,.refl r _⟩
lemma simple?_readable {b:Bool}(h:simple? t=some (n,b)):n.Readable∧n.counts=[]∧t.counts=[]:=by
 cases t<;>cases h<;>exact⟨trivial,rfl,rfl⟩

/-- What each of the four readers builds from what was read before. -/
structure Reads (fuel:Nat):Prop where
 alternative:∀depth r n r',alternative fuel depth r=.ok (n,r')→Built [] r n r'
 alternatives:∀depth l r n r',l.Readable→alternatives fuel depth l r=.ok (n,r')→Built l.counts r n r'
 concatenation:∀depth r done n r',(∀x∈done,Node.Readable x)→concatenation fuel depth r done=.ok (n,r')→
  Built (Node.countsList done.reverse) r n r'
 item:∀depth r n r',item fuel depth r=.ok (n,r')→Built [] r n r'
lemma reads (fuel:Nat):Reads fuel:=by
 induction fuel with
 | zero=>
  constructor
  all_goals
   simp_all [alternative,alternatives,concatenation,item]
 | succ _ ih=>
  constructor
  case alternative=>
   intro d r n r' h
   rw[alternative]at h
   obtain⟨⟨f,r1⟩,h1,h⟩:=bind_eq_ok.1 h
   have hf:=ih.concatenation _ _ _ _ _ (forall_mem_nil _) h1
   exact .trans hf.linear hf.gathers (ih.alternatives _ _ _ _ _ hf.readable h)
  case alternatives=>
   intro d l r n r' hl h
   rw[alternatives]at h
   split at h
   ·next ht=>
    obtain⟨r1,h1,h⟩:=bind_eq_ok.1 h
    refine .advance h1 (by rw[ht];rfl) ?_
    dsimp only at h
    split at h
    ·obtain⟨⟨right,r2⟩,h2,h⟩:=bind_eq_ok.1 h
     have hr:=ih.concatenation _ _ _ _ _ (forall_mem_nil _) h2
     have hg:=hr.gathers.append l.counts
     rw[reverse_nil,Node.countsList,append_nil]at hg
     exact .trans (fun _=>hr.linear rfl) hg
      (ih.alternatives _ (.alt l right) _ _ _ ⟨hl,Or.inl hr.readable⟩ h)
    ·have hre:=ih.alternatives _ (.alt l .empty) _ _ _ ⟨hl,Or.inr rfl⟩ h
     exact .trans (fun _=>rfl) ((Gathers.refl r1.notLinear _).mono (sublist_append_left _ _)) hre
   ·cases h
    exact⟨hl,id,.refl r _⟩
  case concatenation=>
   intro d r dn n r' hdo h
   rw[concatenation]at h
   split at h
   ·obtain⟨⟨x,r1⟩,h1,h⟩:=bind_eq_ok.1 h
    have hit:=ih.item _ _ _ _ h1
    have hg:=hit.gathers.append (Node.countsList dn.reverse)
    rw[append_nil]at hg
    have hre:=ih.concatenation _ _ _ _ _ (forall_mem_cons.2 ⟨hit.readable,hdo⟩) h
    rw[reverse_cons,Node.countsList_append]at hre
    exact .trans hit.linear hg hre
   split at h
   ·cases h
   ·rename_i hne
    cases h
    refine⟨⟨?_,(Node.readableList_iff _).2 fun x hx=>hdo x (mem_reverse.1 hx)⟩,id,.refl r _⟩
    simpa using hne
  case item=>
   intro d r n r' h
   rw[item]at h
   split at h
   ·cases h
   split at h
   ·rename_i x repeats hx
    obtain⟨hrd,hc,ht⟩:=simple?_readable hx
    obtain⟨r1,h1,h⟩:=bind_eq_ok.1 h
    refine .advance h1 ht ?_
    split at h
    ·exact hc▸repetition_built (advance_bounded h1) hrd h
    ·cases h
     exact⟨hrd,id,hc ▸ .refl r' _⟩
   split at h
   ·next ht=>
    obtain⟨r1,h1,h⟩:=bind_eq_ok.1 h
    obtain⟨⟨x,r2⟩,h2,h⟩:=bind_eq_ok.1 h
    refine .advance h1 (by rw[ht];rfl) ?_
    dsimp only at h
    split at h
    ·next hcl=>
     obtain⟨r3,h3,h⟩:=bind_eq_ok.1 h
     have hi:=ih.alternative _ _ _ _ h2
     exact .trans hi.linear hi.gathers (.advance h3 (by rw[hcl];rfl)
      (repetition_built (advance_bounded h3) hi.readable h))
    ·cases h
   ·cases h
end Reader
section
variable {text:Bytes}{strict:Bool}{r:Reading}(h:read text strict=.ok r)
include h
lemma read_built : r.pattern.root.Readable ∧ r.pattern.traits.linear=false∧
 ∃i ws ks,Scanned text.untilNul strict i ws ∧ text.untilNul.byteAt i=0∧
  Forall₂ ReadAs ws ks ∧ ks.Sublist r.pattern.root.counts:=by
 obtain⟨r1,h1,h⟩:=bind_eq_ok.1 h
 obtain⟨⟨root,r2⟩,h2,h⟩:=bind_eq_ok.1 h
 dsimp only at h
 split at h
 ·next hdo=>
  cases h
  have hb:=(reads _).alternative _ _ _ _ h2
  refine⟨hb.readable,hb.linear ?_,?_⟩
  ·rw[advance_traits h1]
   rfl
  ·obtain⟨ks,⟨-,-,he,ws,hs,ha⟩,hks⟩:=
    hb.gathers _ _ [] _ (past_advance .start .nil h1) (nil_sublist _)
   rw[hdo]at ha
   exact⟨_,ws,ks,hs,he hdo,(append_nil ks)▸ha,hks⟩
 ·cases h
lemma read_readable :
 r.pattern.root.Readable:=(read_built h).1
end
/-- The counts that a text has between braces are, in their order, bounds of its tree. A count below 2 ^ 32 is read as
it is written, or the text is refused. -/
theorem read_counts {text:Bytes} {strict:Bool} {r:Reading} (h:read text strict = .ok r) :
 ∃ i ws ks,Scanned text.untilNul strict i ws ∧ text.untilNul.byteAt i = 0 ∧
  List.Forall₂ ReadAs ws ks ∧ ks.Sublist r.pattern.root.counts := (read_built h).2.2
lemma read_counted {text:Bytes}{c:UInt8}{lo hi n:Nat}(ht:text.untilNul=text)
 (hb:Token.read text false 0=.ok ⟨.byte c true,1,false⟩)
 (hc:Token.read text false 1=.ok ⟨.interval lo hi,n,false⟩)
 (hdo:Token.read text false n=.ok ⟨.done,n,false⟩):read text false=
  .ok ⟨⟨.cat [.range lo hi true (.literal c true)],⟨false,false,true,false⟩⟩,false⟩:=by
 have hs:simple? (.byte c true)=some (.literal c true,true)∧simple? .done=none:=⟨rfl,rfl⟩
 simp[read,ht,hb,hc,hdo,hs,start,advance,alternative,alternatives,concatenation,item,repetition,
  greed,bounded,starts,noteGreed,notLinear,Traits.none,parserDepth,bind,Except.bind,pure,Except.pure]
def shortCount:Bytes:=⟨#[97,123,50,32,44,55,125]⟩
theorem shortCount_read_counts : read shortCount false =
  .ok ⟨⟨.cat [.range 2 7 true (.literal 97 true)],⟨false,false,true,false⟩⟩,false⟩∧
 ∃ i ws ks,Scanned shortCount.untilNul false i ws∧shortCount.untilNul.byteAt i=0∧
  List.Forall₂ ReadAs ws ks∧ks.Sublist [(2,7)]:=by
 have hread:=@read_counted shortCount 97 2 7 7 (by cbv) (by cbv) (by cbv) (by cbv)
 exact⟨hread,read_counts hread⟩
def longCount:Bytes:=⟨#[97,123,52,50,57,52,57,54,55,50,57,55,125]⟩

/-- A byte that is to be repeated 2 ^ 32 + 1 times is not repeated. -/
theorem longCount_read : Scanned longCount.untilNul false 13 [(2 ^ 32+1,2 ^ 32+1)]∧
 read longCount false =
  .ok ⟨⟨.cat [.range 1 1 true (.literal 97 true)],⟨false,false,true,false⟩⟩,false⟩:=by
 have htext:Bytes.untilNul longCount=longCount:=by cbv
 have hdigits:longCount.digitsFrom 2=10:=by cbv
 have hwritten:Token.Written longCount 2 13 (2 ^ 32+1,2 ^ 32+1):=by
  have h:=@Token.Written.exactly longCount 2
  rw[hdigits]at h
  exact h (by decide) rfl
 refine⟨?_,read_counted (n:=13) htext (by cbv) (by cbv) (by cbv)⟩
 rw[htext]
 exact .count (.other .start rfl rfl) rfl hwritten
end PatternScan.Regex