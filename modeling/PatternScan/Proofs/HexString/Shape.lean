import PatternScan.HexString.Parser
import PatternScan.Proofs.Atom.Choice
import PatternScan.Proofs.Except
import PatternScan.Proofs.Regex.Layout
/-! A hexadecimal string is read into bytes, jumps and alternatives. -/
namespace PatternScan.HexString
open Yields (bind ite)
open List Bytes Limits MaskedByte Reader
open Regex (Node Pattern)
variable {nested:Bool}{n:Node}{done:List Node}{v m:UInt8}(r:Reader)(inAlternative:Bool)
def isGap:Node→Bool
 | .gap _ _ _=>true
 | _=>false
def IsByte:Node→Prop
 | .literal _ _ | .notLiteral _ | .maskedNot _ _ | .any=>True
 | .masked v m=>IsDigitMask m∧v &&& m=v
 | _=>False
def IsJump (nested:Bool):Node→Prop
 | .gap lo hi greedy=>greedy=false∧(lo≤hi∨hi=unbounded)∧
  (nested=true→lo≤chainingGap∧hi≤chainingGap)
 | _=>False

/-- A tree that was read, inside parentheses if it is nested. -/
inductive Shaped:Bool→Node→Prop
 | byte {nested:Bool}{n:Node}:IsByte n→Shaped nested n
 | cat {nested:Bool}{parts:List Node}:parts≠[]→
  (∀n∈parts,isGap n=false→Shaped true n)→
  (∀n∈parts,isGap n=true→IsJump nested n)→
  (∀n∈parts.head?,isGap n=false)→(∀n∈parts.getLast?,isGap n=false)→
  Shaped nested (.cat parts)
 | alt {nested:Bool}{l r:Node}:Shaped true l→Shaped true r→Shaped nested (.alt l r)
lemma IsByte.isGap {n:Node}(h:IsByte n):isGap n=false:=by cases n<;>first | rfl | exact h.elim
lemma IsByte.unbranched {n:Node}(h:IsByte n):n.unbranched:=by cases n<;>first | rfl | exact h.elim
lemma IsJump.isGap (h:IsJump nested n):HexString.isGap n:=by cases n<;>first | rfl | exact h.elim
lemma IsJump.unbranched (h:IsJump nested n):n.unbranched:=by cases n<;>first | rfl | exact h.elim
lemma IsJump.relax (h:IsJump true n):IsJump nested n:=by
 cases n<;>first | exact⟨h.1,h.2.1,fun _=>h.2.2 rfl⟩ | exact h.elim
lemma Shaped.isGap (h:Shaped nested n):HexString.isGap n=false:=by
 cases h with
 | byte h=>exact h.isGap
 | cat=>rfl
 | alt=>rfl
lemma Shaped.relax (h:Shaped true n):Shaped nested n:=by
 cases h with
 | byte h=>exact .byte h
 | cat hne hi hj hh hla=>exact .cat hne hi (fun n hn hg=>(hj n hn hg).relax) hh hla
 | alt hl hr=>exact .alt hl hr

/-- The items of a list that is being read, the last one first. -/
structure Prepared (nested jumped:Bool)(done:List Node):Prop where
 items:∀n∈done,isGap n=false→Shaped true n
 jumps:∀n∈done,isGap n=true→IsJump nested n
 first:∀n∈done.getLast?,isGap n=false
 last:jumped=false→∀n∈done.head?,isGap n=false
namespace Prepared
variable {jumped:Bool}
lemma nil:Prepared nested jumped []:=⟨nofun,nofun,nofun,nofun⟩
lemma item (h:Prepared nested jumped done)(hn:Shaped true n):Prepared nested false (n::done) where
 items:=forall_mem_cons.2 ⟨fun _=>hn,h.items⟩
 jumps:=forall_mem_cons.2 ⟨fun hg=>absurd (hn.isGap.symm.trans hg) Bool.false_ne_true,h.jumps⟩
 first m hm:=by
  cases done with
  | nil=>
   cases hm
   exact hn.isGap
  | cons x _=>exact h.first m hm
 last _ m hm:=by
  cases hm
  exact hn.isGap
lemma jump (h:Prepared nested jumped done)(hdo:done≠[])(hn:IsJump nested n):Prepared nested true (n::done) where
 items:=forall_mem_cons.2 ⟨fun hg=>absurd (hg.symm.trans hn.isGap) Bool.false_ne_true,h.items⟩
 jumps:=forall_mem_cons.2 ⟨fun _=>hn,h.jumps⟩
 first m hm:=by
  cases done with
  | nil=>exact absurd rfl hdo
  | cons x _=>exact h.first m hm
 last hj:=nomatch hj
lemma shaped (h:Prepared nested false done)(hdo:done≠[]):Shaped nested (.cat done.reverse):=by
 refine .cat (by simpa using hdo) ?_ ?_ ?_ ?_
 ·exact fun n hn=>h.items n (mem_reverse.1 hn)
 ·exact fun n hn=>h.jumps n (mem_reverse.1 hn)
 ·rw[head?_reverse]
  exact h.first
 ·rw[getLast?_reverse]
  exact h.last rfl
end Prepared
lemma twoDigits?_mask {h l:UInt8}(ht:twoDigits? h l=some (v,m)):
 m=255∨IsDigitMask m∧v &&& m=v:=by
 have hlo:∀n:Fin 256,(hexValue (.ofFin n)).toUInt8 &&& 15=
  (hexValue (.ofFin n)).toUInt8:=by decide +kernel
 have hhi:∀n:Fin 256,(UInt8.ofFin n*16+0) &&& 240=.ofFin n*16+0:=by decide +kernel
 have digit:∀(c:UInt8)(x:UInt8×UInt8),(if isHexDigit c then some ((hexValue c).toUInt8,(15:UInt8))
   else if c=63 then some (0,0) else none)=some x→
   x.2=15∧x.1 &&& 15=x.1∨x.2=0∧x.1=0:=by
  intro c x hx
  split_ifs at hx<;>cases hx
  ·exact Or.inl ⟨rfl,hlo c.toFin⟩
  ·exact Or.inr ⟨rfl,rfl⟩
 unfold twoDigits? at ht
 dsimp only at ht
 split at ht
 ·rename_i hv hm lv lm hh hl
  cases ht
  have h1:hm=15∧hv &&& 15=hv∨hm=0∧hv=0:=digit _ _ hh
  have h2:lm=15∧lv &&& 15=lv∨lm=0∧lv=0:=digit _ _ hl
  rcases h1 with⟨rfl,-⟩ | ⟨rfl,rfl⟩<;>rcases h2 with⟨rfl,hlv⟩|⟨rfl,rfl⟩
  ·exact Or.inl rfl
  ·exact Or.inr ⟨Or.inr (Or.inr rfl),hhi hv.toFin⟩
  ·refine Or.inr ⟨Or.inr (Or.inl rfl),?_⟩
   rw[UInt8.zero_mul,UInt8.zero_add,UInt8.zero_add]
   exact hlv
  ·exact Or.inr ⟨Or.inl rfl,rfl⟩
 ·cases ht
lemma isByte_byteNode (h:m=255∨IsDigitMask m∧v &&& m=v):IsByte (byteNode v m):=by
 unfold byteNode
 split
 ·trivial
 rename_i h255
 split
 ·trivial
 ·exact h.resolve_left h255
lemma isByte_notByteNode (v m:UInt8):IsByte (notByteNode v m):=by
 unfold notByteNode
 split<;>trivial
def Token.Proper:Token→Prop
 | .byte n=>IsByte n
 | _=>True
lemma readToken_proper (src:Bytes)(inJ:Bool)(f:Nat):
 ∀i,Yields (fun x=>x.1.Proper) (readToken src inJ f i):=by
 have plain:∀(t:Token) (n:Nat),t.Proper→
  Yields (fun x=>x.1.Proper) (.ok (t,n):Except ReadError (Token×Nat)):=
  fun _ _ h=>yields_ok h
 induction f with
 | zero=>exact fun i=>plain .done i trivial
 | succ f ih=>
  intro i
  refine (plain .done _ trivial).ite ((ih _).ite (ite ?_ ?_))
  ·exact (plain .hyphen _ trivial).ite ((plain .endBracket _ trivial).ite
    ((plain (.number _) _ trivial).ite (yields_error _ _)))
  refine (plain .bracket _ trivial).ite ((plain .brace _ trivial).ite
   ((plain .endBrace _ trivial).ite ((plain .open _ trivial).ite ((plain .close _ trivial).ite
   ((plain .bar _ trivial).ite ((ih _).ite ((ih _).ite (ite ?_ ?_))))))))
  ·split
   ·exact (yields_error _ _).ite (plain (.byte _) _ (isByte_notByteNode _ _))
   ·exact yields_error _ _
  ·split
   ·rename_i v m h
    exact plain (.byte _) _ (isByte_byteNode (twoDigits?_mask h))
   ·exact (yields_error _ _).ite (yields_error _ _)
namespace Reader
lemma advanceIn_proper (i:Bool):Yields (fun r'=>r'.token.Proper∧r'.linear=r.linear) (r.advanceIn i):=
 bind fun _ h=>yields_ok ⟨readToken_proper _ _ _ _ _ h,rfl⟩
def IsItem (nested:Bool)(n:Node):Prop:=IsJump nested n∨IsByte n
lemma exactJump_isItem (n:Int):Yields (IsItem inAlternative) (exactJump inAlternative n):=by
 unfold exactJump
 split
 ·exact yields_error _ _
 split
 ·exact yields_error _ _
 rename_i hp hsh
 refine ite (yields_ok (.inr ⟨.inl rfl,rfl⟩)) (yields_ok (.inl ⟨rfl,.inl le_rfl,fun h=>?_⟩))
 grind
lemma openJump_isItem (n:Int):Yields (IsItem inAlternative) (openJump inAlternative n):=by
 unfold openJump
 split
 ·exact yields_error _ _
 rename_i ho
 exact (yields_error _ _).ite (yields_ok (.inl ⟨rfl,.inr rfl,fun h=>absurd h ho⟩))
lemma boundedJump_isItem (lo hi:Int):Yields (IsItem inAlternative) (boundedJump inAlternative lo hi):=by
 unfold boundedJump
 split
 ·exact yields_error _ _
 split
 ·exact yields_error _ _
 split
 ·exact yields_error _ _
 rename_i hsh hn ho
 refine yields_ok (.inl ⟨rfl,.inl (Int.toNat_le_toNat (not_lt.1 ho)),fun h=>?_⟩)
 grind
lemma jump_isItem:Yields (fun x=>IsItem inAlternative x.1∧x.2.token.Proper∧x.2.linear=r.linear)
  (r.jump inAlternative):=by
 have finish:∀(n:Except ReadError Node) (r':Reader),Yields (IsItem inAlternative) n → r'.linear=r.linear→
  Yields (fun x=>IsItem inAlternative x.1∧x.2.token.Proper∧x.2.linear=r.linear)
   (do let n ← n;pure (n,← r'.advance):Except ReadError (Node×Reader)):=
  fun n r' h hl=>bind fun x hx=>bind fun r'' hr=>by
   obtain⟨ht,hs⟩:=advanceIn_proper r' false r'' hr
   exact yields_ok ⟨h x hx,ht,hs.trans hl⟩
 refine bind fun r1 h1=>?_
 have h1:=(advanceIn_proper _ _ r1 h1).2
 split
 ·refine bind fun r2 h2=>?_
  have h2:=(advanceIn_proper _ _ r2 h2).2.trans h1
  split
  ·exact finish _ _ (openJump_isItem _ _) h2
  ·exact yields_error _ _
 ·refine bind fun r2 h2=>?_
  have h2:=(advanceIn_proper _ _ r2 h2).2.trans h1
  split
  ·exact finish _ _ (exactJump_isItem _ _) h2
  ·refine bind fun r3 h3=>?_
   have h3:=(advanceIn_proper _ _ r3 h3).2.trans h2
   split
   ·exact finish _ _ (openJump_isItem _ _) h3
   ·refine bind fun r4 h4=>?_
    have h4:=(advanceIn_proper _ _ r4 h4).2.trans h3
    split
    ·exact finish _ _ (boundedJump_isItem _ _ _) h4
    ·exact yields_error _ _
   ·exact yields_error _ _
  ·exact yields_error _ _
 ·exact yields_error _ _

/-- The reader has seen no alternatives since just if what was read since has no branches. -/
structure Tracks (r:Reader)(done:List Node)(n:Node)(r':Reader):Prop where
 linear:r'.linear=true → r.linear=true∧(Node.unbranchedList done=true→n.unbranched=true)
 unbranched:n.unbranched=true→Node.unbranchedList done=true∧r'.linear=r.linear
lemma Tracks.item {r r1 r2:Reader}{m:Node}
 (h:Tracks r1 (m::done) n r2)(hl:r1.linear → r.linear∧m.unbranched)
 (hm:m.unbranched → r1.linear=r.linear):Tracks r done n r2 where
 linear h2:=by
  obtain⟨h1,hdo⟩:=h.linear h2
  obtain⟨hr,hm⟩:=hl h1
  refine⟨hr,fun hd=>hdo ?_⟩
  rw[Node.unbranchedList,hm,hd]
  rfl
 unbranched hn:=by
  obtain⟨ha,hs⟩:=h.unbranched hn
  rw[Node.unbranchedList,Bool.and_eq_true]at ha
  exact⟨ha.2,hs.trans (hm ha.1)⟩
lemma unbranchedList_reverse (ns:List Node):Node.unbranchedList ns.reverse=Node.unbranchedList ns:=by
 have hi:∀ns:List Node,Node.unbranchedList ns=ns.all Node.unbranched:=by
  intro ns
  induction ns with
  | nil=>rfl
  | cons n _ ih=>rw[Node.unbranchedList,all_cons,ih]
 rw[hi,hi,all_reverse]
structure Reads (fuel:Nat):Prop where
 items:∀depth inAlternative jumped r done,r.token.Proper→Prepared inAlternative jumped done→
  Yields (fun x=>Shaped inAlternative x.1∧Tracks r done x.1 x.2)
   (items fuel depth inAlternative jumped r done)
 alternatives:∀depth left r,Shaped true left→Yields (fun x=>Shaped true x.1∧
   (x.2.linear=true∨x.1.unbranched=true→x=(left,r)))
   (alternatives fuel depth left r)
lemma reads (fuel:Nat):Reads fuel:=by
 induction fuel with
 | zero=>
  constructor
  ·intro d inAlternative jumped r done _ _
   exact yields_error _ _
  ·intro d left r _
   exact yields_error _ _
 | succ _ ih=>
  constructor
  ·intro d inAlternative jumped r done hr hdo
   unfold items
   split
   ·rename_i n hto
    rw[hto]at hr
    have hn:IsByte n:=hr
    refine Yields.bind fun r1 h1 x hx=>?_
    obtain⟨hp,hsa⟩:=advanceIn_proper _ _ _ h1
    obtain⟨hs,ht⟩:=ih.items _ _ _ _ _ hp (hdo.item (.byte hn)) x hx
    exact⟨hs,ht.item (fun h=>⟨hsa▸h,hn.unbranched⟩) fun _=>hsa⟩
   ·refine (yields_error _ _).ite (Yields.bind fun r1 h1=>Yields.bind fun x hx=>Yields.bind fun y hy=>?_)
    obtain⟨hpr1,hsa1⟩:=advanceIn_proper _ _ _ h1
    obtain⟨hxs,hxt⟩:=ih.items _ _ _ _ _ hpr1 .nil x hx
    obtain⟨hys,hysa⟩:=ih.alternatives _ _ _ hxs y hy
    dsimp only
    split
    ·refine Yields.bind fun r2 h2 z hz=>?_
     obtain⟨hpr2,hsa2⟩:=advanceIn_proper _ _ _ h2
     obtain⟨hs,ht⟩:=ih.items _ _ _ _ _ hpr2 (hdo.item hys) z hz
     refine⟨hs,ht.item (fun h=>?_) fun hm=>?_⟩
     ·rw[hsa2]at h
      have hxy:=hysa (.inl h)
      rw[hxy]at h⊢
      obtain⟨hli,hbr⟩:=hxt.linear h
      exact⟨hsa1▸hli,hbr rfl⟩
     ·have hxy:=hysa (.inr hm)
      rw[hxy]at hm hsa2
      rw[hsa2,(hxt.unbranched hm).2,hsa1]
    ·exact yields_error _ _
   ·split
    ·exact yields_error _ _
    rename_i hne
    refine Yields.bind fun x hx z hz=>?_
    obtain⟨hi,hp,hsa⟩:=jump_isItem _ _ x hx
    have hpr:Prepared inAlternative true (x.1::done):=by
     rcases hi with hj|hb
     ·exact hdo.jump (by simpa using hne) hj
     ·have hi:=hdo.item (.byte hb)
      exact⟨hi.items,hi.jumps,hi.first,nofun⟩
    have hu:x.1.unbranched:=by
     rcases hi with hj|hb
     ·exact hj.unbranched
     ·exact hb.unbranched
    obtain⟨hs,ht⟩:=ih.items _ _ _ _ _ hp hpr z hz
    exact⟨hs,ht.item (fun h=>⟨hsa▸h,hu⟩) fun _=>hsa⟩
   split
   ·exact yields_error _ _
   rename_i ho
   rw[Bool.or_eq_true,not_or,Bool.not_eq_true,Bool.not_eq_true]at ho
   rw[ho.2]at hdo
   have hne:done≠[]:=by simpa using ho.1
   split
   ·rename_i n
    have hg:isGap n=false:=hdo.first n rfl
    refine yields_ok ⟨(hdo.items n mem_cons_self hg).relax,?_,?_⟩
    ·intro h
     exact⟨h,fun hn=>by simpa[Node.unbranchedList]using hn⟩
    ·intro hn
     exact⟨by simpa[Node.unbranchedList]using hn,rfl⟩
   ·refine yields_ok ⟨hdo.shaped hne,?_,?_⟩
    ·intro h
     exact⟨h,fun hn=>(unbranchedList_reverse done).trans hn⟩
    ·intro hn
     exact⟨(unbranchedList_reverse done).symm.trans hn,rfl⟩
  intro d left r hl
  rw[alternatives]
  split
  ·refine Yields.bind fun r1 h1=>Yields.bind fun x hx y hy=>?_
   obtain⟨hp,-⟩:=advanceIn_proper _ _ _ h1
   obtain⟨hxs,-⟩:=ih.items _ _ _ _ _ hp .nil x hx
   obtain⟨hs,hsa⟩:=ih.alternatives _ (.alt left x.1) _ (.alt hl hxs) y hy
   refine⟨hs,fun h=>?_⟩
   -- the alternative just read is a branch, and the reader has noted it
   rw[hsa h]at h
   rcases h with h|h<;>cases h
  ·exact yields_ok ⟨hl,fun _=>rfl⟩
end Reader
lemma read_shaped (t:Bytes):Yields (fun p=>Shaped false p.root∧
 p.traits.linear=p.root.unbranched∧p.traits.dotAll) (read t):=by
 refine Yields.bind fun r1 h1=>?_
 have h1:=(advanceIn_proper _ _ _ h1).2
 split
 ·refine Yields.bind fun r2 h2=>Yields.bind fun x hx=>?_
  obtain⟨hp,h2⟩:=advanceIn_proper _ _ _ h2
  obtain⟨hs,ht⟩:=(reads _).items _ _ _ _ _ hp .nil x hx
  dsimp only
  split
  ·refine Yields.bind fun r3 h3=>?_
   have h3:=(advanceIn_proper _ _ _ h3).2
   split
   ·refine yields_ok ⟨hs,?_,rfl⟩
    rw[h3,Bool.eq_iff_iff]
    constructor
    ·exact fun h=>(ht.linear h).2 rfl
    ·intro h
     rw[(ht.unbranched h).2,h2,h1]
   ·exact yields_error _ _
  ·exact yields_error _ _
 ·exact yields_error _ _
end PatternScan.HexString