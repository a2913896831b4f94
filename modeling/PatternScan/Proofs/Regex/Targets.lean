import PatternScan.Proofs.Regex.Emission
/-! Every jump in emitted code leads to an instruction. -/
open PatternScan.Regex.Code
namespace PatternScan.Regex
open Relation (ReflTransGen)
variable {S:Nat→Prop}{a:Nat}{back:Bool}
def Inst.distance? : Inst→Option Int
 | .split _ _ d | .jump d | .repeatStart _ _ _ d | .repeatEnd _ _ _ d=>some d
 | _=>none
namespace Code
def Next (c:Code)(x y:Nat):Prop:=
 c.fetch x≠.filler∧c.fetch x≠.accept∧y=x+(c.fetch x).size
def Starts (c:Code)(a x:Nat):Prop:=ReflTransGen c.Next a x∧c.fetch x≠.filler
def Aims (c:Code)(S:Nat→Prop)(x:Nat):Prop:=
 ∀d,(c.fetch x).distance?=some d→∃t:Nat,(x:Int)+d=t∧S t

/-- The code from one address to another, with a property of each instruction. -/
inductive Reads (c:Code)(P:Nat→Prop):Nat→Nat→Prop
 | done (a:Nat):Reads c P a a
 | step {a b z:Nat}(next:c.Next a b)(holds:P a)(rest:Reads c P b z):Reads c P a z
variable {c:Code}{P:Nat→Prop}{x z:Nat}{i:Inst}
lemma next_of (hi:c.fetch a=i)(hf:i≠.filler)(ha:i≠.accept):c.Next a (a+i.size):=by
 subst hi
 exact⟨hf,ha,rfl⟩
lemma aims_of {d:Int}(hi:c.fetch x=i)(hd:i.distance?=some d){t:Nat}(ht:(x:Int)+d=t)(hS:S t):c.Aims S x:=by
 intro d' hd'
 rw[hi,hd]at hd'
 cases hd'
 exact⟨t,ht,hS⟩
namespace Reads
lemma trans (h:c.Reads P a x)(h':c.Reads P x z):c.Reads P a z:=by
 induction h with
 | done=>exact h'
 | step next holds _ ih=>exact .step next holds (ih h')
lemma mem (h:c.Reads P a z)(hS:∀x y,S x→c.Next x y→S y)(ha:S a):S z:=by
 induction h with
 | done=>exact ha
 | step next _ _ ih=>exact ih (hS _ _ ha next)
lemma holds_or (h:c.Reads P a z)(hx:ReflTransGen c.Next a x):
 c.fetch x≠.filler∧P x∨ReflTransGen c.Next z x:=by
 induction h with
 | done=>exact .inr hx
 | step next holds _ ih=>
  rcases hx.cases_head with rfl|⟨b,hb,hx⟩
  ·exact .inl ⟨next.1,holds⟩
  ·obtain rfl:=hb.2.2.trans next.2.2.symm
   exact ih hx
end Reads
end Code
namespace Node
open Emission (leaf?)
mutual
/-- The code of a pattern, in one direction, opens with the instruction that counts as its first. -/
def opens (back:Bool):Node→Bool
 | .cat parts=>opensList back parts
 | .plus _ e=>e.opens back
 | .range lo hi _ e=>if lo>0 then e.opens back else hasLoop lo hi
 | .empty=>false
 | _=>true
def opensList (back:Bool):List Node→Bool
 | []=>false
 | n::ns=>
  if back then if ns.isEmpty then n.opens back else opensList back ns
  else n.opens back
end
mutual
/-- A property of the body of each `+` in a pattern that is laid at an address, and of the body's address. -/
def EachLoop (back:Bool)(Q:Node→Nat→Prop):Node→Nat→Prop
 | .cat parts,a=>EachLoopList back Q parts a
 | .plus _ e,a=>Q e a∧e.EachLoop back Q a
 | .star _ e,a=>e.EachLoop back Q (a+4)
 | .alt l r,a=>l.EachLoop back Q (a+4)∧r.EachLoop back Q (a+4+l.codeSize+3)
 | .range lo hi _ e,a=>
  (lo>0→e.EachLoop back Q a)∧
  (hasLoop lo hi=true→e.EachLoop back Q (loopAt lo e a+9))∧
  (hasEpilog lo hi=true→e.EachLoop back Q (epilogAt lo hi e a))
 | _,_=>True
def EachLoopList (back:Bool)(Q:Node→Nat→Prop):List Node→Nat→Prop
 | [],_=>True
 | n::ns,a=>
  if back then
   EachLoopList back Q ns a∧n.EachLoop back Q (a+codeSizeList ns)
  else n.EachLoop back Q a∧EachLoopList back Q ns (a+n.codeSize)
end
/-- The body of each `+` opens with the instruction that counts as its first. -/
abbrev LoopsOpen (back:Bool):Node→Nat→Prop:=
 EachLoop back fun e _=>e.opens back=true
lemma first_of_opens (n:Node):n.opens back→∀a,n.first back a=some a:=by
 induction n using induction (Q:=fun ns=>opensList back ns→∀a,firstList back ns a=some a) with
 | leaf n hn=>
  intro h a
  cases n <;> first | exact hn.elim | rfl | cases h
 | cat _ ih=>exact ih
 | alt l r=>exact fun _ _=>rfl
 | star g e=>exact fun _ _=>rfl
 | plus g e ih=>exact ih
 | range _ _ g e ih=>
  intro h a
  rw[opens]at h
  rw[first]
  split at h
  ·next hlo=>rw[if_pos hlo,ih h]
  ·next hlo=>rw[if_neg hlo,if_pos h]
 | nil h=>cases h
 | cons n _ ihn ihns h a=>
  rw[opensList]at h
  rw[firstList]
  split at h
  ·next hb=>
   rw[if_pos hb]
   split at h
   ·next hns=>rw[if_pos hns,ihn h]
   ·next hns=>rw[if_neg hns,ihns h]
  ·next hb=>rw[if_neg hb,ihn h]

/-- Behind the body of each `+` the code leads back to the start of the body. -/
abbrev LoopsReturn (c:Code)(back:Bool):Node→Nat→Prop:=
 EachLoop back fun e a=>∃f id,c.fetch (a+e.codeSize)=.split f id (-e.codeSize)
section
variable {c:Code}
lemma Laid.plus_distance {g:Bool}{e:Node}(h:(plus g e).Laid c back a)
 (ho:e.opens back=true):∃id,c.fetch (a+e.codeSize)=.split (!g) id (-e.codeSize):=by
 obtain⟨-,id,h⟩:=h
 rw[first_of_opens e ho,backDistance]at h
 exact⟨id,by rw[h];congr 1;omega⟩
lemma Laid.loops (n:Node):∀a,n.Laid c back a→n.LoopsOpen back a→n.LoopsReturn c back a:=by
 induction n using induction (Q:=fun ns=>∀a,LaidList c back ns a→
   EachLoopList back (fun e _=>e.opens back) ns a→EachLoopList back
    (fun e a=>∃f id,c.fetch (a+e.codeSize)=.split f id (-e.codeSize)) ns a) with
 | leaf n hn=>
  intro a _ _
  cases n<;>first | exact hn.elim | trivial
 | cat _ ih=>exact ih
 | alt l r ihl ihr=>exact fun a h ho=>⟨ihl _ h.2.1 ho.1,ihr _ h.2.2.2 ho.2⟩
 | star g e ih=>exact fun a h ho=>ih _ h.2.1 ho
 | plus g e ih=>exact fun a h ho=>⟨⟨_,h.plus_distance ho.1⟩,ih _ h.1 ho.2⟩
 | range _ _ g e ih=>
  exact fun a h ho=>⟨fun hlo=>ih _ (h.1 hlo) (ho.1 hlo),
   fun hlp=>ih _ (h.2.1 hlp).2.1 (ho.2.1 hlp),fun hep=>ih _ (h.2.2.2 hep) (ho.2.2 hep)⟩
 | nil=>trivial
 | cons n _ _ _ a h ho=>
  rw[LaidList]at h
  rw[EachLoopList]at ho⊢
  grind
variable (hS:∀x y,S x→c.Next x y→S y)
include hS
lemma Laid.reads (n:Node):∀a,n.Laid c back a → n.LoopsOpen back a→S a→
 c.Reads (c.Aims S) a (a+n.codeSize):=by
 induction n using induction (Q:=fun ns=>∀a,LaidList c back ns a→
   EachLoopList back (fun e _=>e.opens back) ns a→S a→
   c.Reads (c.Aims S) a (a+codeSizeList ns)) with
 | leaf n hn=>
  intro a hl _ _
  rw[hn.laid_iff]at hl
  rw[hn.codeSize_eq]
  cases hle:leaf? n with
  | none=>exact .done a
  | some i=>
   have hi:=hl i hle
   have hp:i≠.filler ∧ i≠.accept ∧ i.distance?=none:=by
    cases n <;> cases hle <;> exact⟨by simp,by simp,rfl⟩
   refine .step (next_of hi hp.1 hp.2.1) (fun d hd=>?_) (.done _)
   rw[hi,hp.2.2]at hd
   cases hd
 | cat _ ih=>exact ih
 | alt l r ihl ihr=>
  rintro a ⟨⟨id,h1⟩,h2,h3,h4⟩ ⟨hl,hr⟩ ha
  have hn1:=next_of h1 (by simp) (by simp)
  have hlf:=ihl _ h2 hl (hS _ _ ha hn1)
  have hn3:=next_of h3 (by simp) (by simp)
  have hS3:=hS _ _ (hlf.mem hS (hS _ _ ha hn1)) hn3
  have hri:=ihr _ h4 hr hS3
  rw[codeSize,show a+(l.codeSize+r.codeSize+7)=a+4+l.codeSize+3+r.codeSize by omega]
  exact .step hn1 (aims_of h1 rfl (by simp only[Inst.size];omega) hS3) (hlf.trans
   (.step hn3 (aims_of h3 rfl (by omega) (hri.mem hS hS3)) hri))
 | star g e ih=>
  rintro a ⟨⟨id,h1⟩,h2,h3⟩ ho ha
  have hn1:=next_of h1 (by simp) (by simp)
  have hbo:=ih _ h2 ho (hS _ _ ha hn1)
  have hn3:=next_of h3 (by simp) (by simp)
  have hS3:=hS _ _ (hbo.mem hS (hS _ _ ha hn1)) hn3
  rw[codeSize,show a+(e.codeSize+7)=a+4+e.codeSize+3 by omega]
  exact .step hn1 (aims_of h1 rfl (by simp only[Inst.size];omega) hS3)
   (hbo.trans (.step hn3 (aims_of h3 rfl (by omega) ha) (.done _)))
 | plus g e ih=>
  intro a h ho ha
  obtain⟨id,hs⟩:=h.plus_distance ho.1
  exact (ih _ h.1 ho.2 ha).trans
   (.step (next_of hs (by simp) (by simp)) (aims_of hs rfl (by omega) ha) (.done _))
 | range lo hi g e ih=>
  rintro a ⟨h1,h2,h3,h4⟩ ⟨ho1,ho2,ho4⟩ ha
  have hpr:c.Reads (c.Aims S) a (loopAt lo e a):=by
   rw[loopAt]
   split
   ·next hlo=>exact ih _ (h1 hlo) (ho1 hlo) ha
   ·exact .done a
  have hSloop:=hpr.mem hS ha
  have hloo:c.Reads (c.Aims S) (loopAt lo e a) (branchAt lo hi e a):=by
   rw[branchAt]
   split
   ·next hlp=>
    obtain⟨hs,hb,he⟩:=h2 hlp
    have hn1:=next_of hs (by simp) (by simp)
    have hSbody:=hS _ _ hSloop hn1
    have hbo:=ih _ hb (ho2 hlp) hSbody
    have hn2:=next_of he (by simp) (by simp)
    have hSend:=hS _ _ (hbo.mem hS hSbody) hn2
    rw[show loopAt lo e a+(e.codeSize+18)=loopAt lo e a+9+e.codeSize+9 by omega]
    exact .step hn1 (aims_of hs rfl (by simp only[Inst.size];omega) hSend) (hbo.trans
     (.step hn2 (aims_of he rfl (by simp only[Inst.size];omega) hSbody) (.done _)))
   ·exact .done _
  have hSbranch:=hloo.mem hS hSloop
  rw[←epilogAt_add lo hi g e a]
  refine (hpr.trans hloo).trans ?_
  by_cases hhi:hi>lo
  ·obtain⟨id,hs⟩:=h3 hhi
   have hep:hasEpilog lo hi:=by simp[hasEpilog,hhi]
   have hat:epilogAt lo hi e a=branchAt lo hi e a+4:=by rw[epilogAt,if_pos hhi]
   have hn:=next_of hs (by simp) (by simp)
   have hepi:=ih _ (h4 hep) (ho4 hep) (hat▸hS _ _ hSbranch hn)
   rw[if_pos hep]
   refine .step hn (aims_of hs rfl ?_ (hepi.mem hS (hat▸hS _ _ hSbranch hn))) (hat▸hepi)
   omega
  ·have hat:epilogAt lo hi e a=branchAt lo hi e a:=by rw[epilogAt,if_neg hhi,add_zero]
   rw[hat]at h4 ho4⊢
   split
   ·next hep=>exact ih _ (h4 hep) (ho4 hep) hSbranch
   ·exact .done _
 | nil a=>exact .done a
 | cons n _ ihn ihns a hl ho ha=>
  rw[LaidList]at hl
  rw[EachLoopList]at ho
  rw[codeSizeList]
  split at hl
  ·next hb=>
   rw[if_pos hb]at ho
   have hre:=ihns _ hl.1 ho.1 ha
   rw[add_comm n.codeSize,←add_assoc]
   exact hre.trans (ihn _ hl.2 ho.2 (hre.mem hS ha))
  ·next hb=>
   rw[if_neg hb]at ho
   have hno:=ihn _ hl.1 ho.1 ha
   rw[←add_assoc]
   exact hno.trans (ihns _ hl.2 ho.2 (hno.mem hS ha))
end
end Node
/-- If the bodies of `+` open with their first instruction, every jump in emitted code leads to an instruction of this
code, and the one behind the body of a `+` to the start of the body. -/
theorem Pattern.emit_targets {p:Pattern} {back:Bool} {c c':Code} {entries es:Array Entry}
 (h:p.emit back c entries = .ok (c',es)) (ho:p.root.LoopsOpen back c.size) :
 (∀ x,c'.Starts c.size x → c'.Aims (c'.Starts c.size) x) ∧
 p.root.LoopsReturn c' back c.size := by
 obtain⟨hstd,-⟩:=p.emit_stands h
 have hreads:=hstd.laid.reads (S:=ReflTransGen c'.Next c.size) (fun _ _=>.tail) _ _ ho .refl
 have hcases:∀{x},ReflTransGen c'.Next c.size x→
  c'.fetch x≠.filler∧c'.Aims (ReflTransGen c'.Next c.size) x:=by
  intro x hx
  rcases hreads.holds_or hx with hx|hx
  ·exact hx
  ·rcases hx.cases_head with rfl|⟨_,hnext,_⟩
   ·rw[Code.Aims,hstd.accept]
    exact⟨nofun,nofun⟩
   ·exact absurd hstd.accept hnext.2.1
 refine⟨fun x hx d hd=>?_,hstd.laid.loops _ _ ho⟩
 obtain⟨t,ht,hreach⟩:=(hcases hx.1).2 d hd
 exact⟨t,ht,hreach,(hcases hreach).1⟩
def partedLoop:Pattern:=
 ⟨.cat [.plus true (.alt (.cat [.literal 97 true])
  (.cat [.range 2 5 true (.cat [.plus false (.literal 98 true)]),.literal 99 true]))],⟨false,false,true,false⟩⟩
theorem partedLoop_emit_targets : ∃ c,partedLoop.emit true .empty #[]=.ok (c,#[])∧
 (∀ x,c.Starts 0 x → c.Aims (c.Starts 0) x)∧partedLoop.root.LoopsReturn c true 0:=by
 refine⟨_,rfl,@Pattern.emit_targets partedLoop true .empty _ #[] _ rfl ?_⟩
 simp[partedLoop,Node.LoopsOpen,Node.EachLoop,Node.EachLoopList,Node.opens]
def optionLoop:Pattern:=
 ⟨.cat [.plus true (.cat [.range 0 1 true (.literal 97 true),.literal 98 true])],⟨false,false,true,false⟩⟩
def noneLoop:Pattern:=
 ⟨.cat [.plus true (.cat [.range 0 0 true (.literal 97 true),.literal 98 true])],⟨false,false,true,false⟩⟩

/-- A loop is repeated from behind the branch of an option, and from before the code. -/
theorem emit_targets_missed :
 (∃ c,optionLoop.emit false .empty #[]=.ok (c,#[])∧¬ optionLoop.root.LoopsReturn c false 0)∧
 ∃ c,noneLoop.emit false .empty #[]=.ok (c,#[])∧∃ x,c.Starts 0 x∧¬ c.Aims (c.Starts 0) x:=by
 refine⟨⟨_,rfl,?_⟩,_,rfl,2,⟨.single ⟨nofun,nofun,rfl⟩,nofun⟩,?_⟩
 ·rintro⟨⟨⟨f,id,h⟩,-⟩,-⟩
  cases h
 ·intro h
  obtain⟨t,ht,-⟩:=h (-3) rfl
  omega
end PatternScan.Regex