import PatternScan.Proofs.Regex.Passage
/-! Between two inputs the machine takes each branch once, whatever the counters of the thread that
comes to it. -/
namespace PatternScan.Regex
open Bool (and_eq_true not_eq_true' or_eq_false_iff or_true)
open Thread (waits ways)
open Code Thread
open Machine (Verdict advance)
variable {c:Code}{t s:Thread}{lo hi mid lo' hi' a:Nat}{leaves:Bool}{D:Set Thread}{k:List Nat}
/-- What a thread finds at the start of a piece of code before it waits. -/
structure Face where
 blank:Bool
 entered:Bool
 /-- A branch that other threads may come to with other counters. -/
 looped:Bool
 /-- No branch that is found by those who come to the end from the inside. This says nothing about
 blank pieces. -/
 apart:Bool
namespace Face
def nil:Face:=⟨true,false,false,true⟩
def leaf (blank:Bool):Face:=⟨blank,false,false,true⟩
def seq (x y:Face):Face where
 blank:=x.blank&&y.blank
 entered:=x.entered||x.blank&&y.entered
 looped:=x.looped||x.blank&&y.looped
 apart:=if x.blank then y.apart else !y.blank||x.apart
def alt (l r:Face):Face:=⟨l.blank||r.blank,true,l.looped||r.looped,l.apart&&r.apart⟩
def option (e:Face):Face:=alt e nil
def plus (e:Face):Face:=⟨e.blank,e.entered||e.blank,e.looped,!e.entered⟩
def loop (rounds:Nat)(e:Face):Face:=
 ⟨true,e.entered,if rounds≤1 then e.looped else e.entered,true⟩
def recurs (e:Face):Bool:=!e.looped||!e.blank&&e.apart
end Face
def Thread.Branches (c:Code)(t:Thread):Prop:=(c.branch? t.address).isSome=true
lemma Thread.Branches.lt (h:t.Branches c):t.address<c.size:=by
 by_contra hx
 rw[Thread.Branches,Code.branch?,c.fetch_of_size_le _ (by omega)]at h
 cases h

/-- The threads that a thread comes to between two inputs, in a piece of code that is left at its end only. No branch
is come to in two ways. -/
structure Zone (c:Code)(lo hi:Nat)(spot:Thread→Prop)(t s:Thread)(leaves:Bool)
 (D:Set Thread):Prop where
 mem:t∈D∨leaves=true∧t=s
 place:∀u∈D,lo≤u.address∧u.address<hi∨c.size≤u.address
 closed:∀u∈D,∀w∈u.ways c,w∈D∨leaves=true∧w=s
 single:∀u∈D,∀u'∈D,u.Branches c→u.address=u'.address→u=u'
 spots:∀u∈D,∀w,u.waits c=some w→c.fetch u.address=.filler∨spot (advance w (c.fetch u.address))
section
variable {spot spot':Thread→Prop}{u u':Thread}{leaves':Bool}{D':Set Thread}
lemma Thread.Branches.congr (h:t.Branches c)(heq:t.address=u.address):u.Branches c:=by rwa[Branches,←heq]
lemma Zone.branch_place (h:Zone c lo hi spot t s leaves D)(hu:u∈D)(hb:u.Branches c):
 lo≤u.address∧u.address<hi:=
 (h.place u hu).resolve_right (Nat.not_le_of_lt hb.lt)
lemma Zone.weaken (h:Zone c lo hi spot t s leaves D)(hlo:lo'≤lo)
 (hhi:hi≤hi')(hspot:∀u,spot u→spot' u):Zone c lo' hi' spot' t s leaves D where
 mem:=h.mem
 place u hu:=(h.place u hu).imp_left fun hin=>⟨hlo.trans hin.1,hin.2.trans_le hhi⟩
 closed:=h.closed
 single:=h.single
 spots u hu w hw:=(h.spots u hu w hw).imp_right (hspot _)
lemma Zone.relax (h:Zone c lo hi spot t s leaves D)(hle:leaves→leaves'∧s=u):
 Zone c lo hi spot t u leaves' D where
 mem:=h.mem.imp_right fun⟨hl,ht⟩=>⟨(hle hl).1,ht.trans (hle hl).2⟩
 place:=h.place
 closed x hx w hw:=(h.closed x hx w hw).imp_right fun⟨hl,ht⟩=>⟨(hle hl).1,ht.trans (hle hl).2⟩
 single:=h.single
 spots:=h.spots
lemma zone_nil (c:Code)(lo hi:Nat)(spot:Thread→Prop)(s:Thread):Zone c lo hi spot s s true ∅ where
 mem:=.inr ⟨rfl,rfl⟩
 place:=nofun
 closed:=nofun
 single:=nofun
 spots:=nofun
lemma Zone.union (hX:Zone c lo hi spot t s leaves D)(hY:Zone c lo hi spot s u leaves' D')
 (hc:leaves→∀x∈D,∀y∈D',x.Branches c→x.address=y.address→x=y):
 Zone c lo hi spot t u (leaves&&leaves') (D ∪ {x | leaves∧x∈D'}):=by
 have he:leaves→s∈D ∪ {x | leaves∧x∈D'}∨(leaves&&leaves')∧s=u:=by
  intro hl
  rcases hY.mem with hs|⟨hl',rfl⟩
  ·exact .inl (.inr ⟨hl,hs⟩)
  ·exact .inr ⟨by rw[hl,hl'];rfl,rfl⟩
 refine⟨?_,?_,?_,?_,?_⟩
 ·rcases hX.mem with ht|⟨hl,rfl⟩
  ·exact .inl (.inl ht)
  ·exact he hl
 ·rintro x (hx|⟨-,hx⟩)
  ·exact hX.place x hx
  ·exact hY.place x hx
 ·rintro x (hx|⟨hl,hx⟩) w hw
  ·rcases hX.closed x hx w hw with hw|⟨hl,rfl⟩
   ·exact .inl (.inl hw)
   ·exact he hl
  ·rcases hY.closed x hx w hw with hw|⟨hl',rfl⟩
   ·exact .inl (.inr ⟨hl,hw⟩)
   ·exact .inr ⟨by rw[hl,hl'];rfl,rfl⟩
 ·rintro x (hx|⟨hl,hx⟩) y (hy|⟨hl',hy⟩) hb heq
  ·exact hX.single x hx y hy hb heq
  ·exact hc hl' x hx y hy hb heq
  ·exact (hc hl y hy x hx (hb.congr heq) heq.symm).symm
  ·exact hY.single x hx y hy hb heq
 ·rintro x (hx|⟨-,hx⟩)
  ·exact hX.spots x hx
  ·exact hY.spots x hx
lemma Zone.disjoint {t' s':Thread}(hX:Zone c lo hi spot t s leaves D)
 (hY:Zone c lo' hi' spot' t' s' leaves' D')(h:hi≤lo'∨hi'≤lo)(hu:u∈D)(hu':u'∈D')
 (hb:u.Branches c):u.address≠u'.address:=by
 intro heq
 have hup:=hX.branch_place hu hb
 have hup':=hY.branch_place hu' (hb.congr heq)
 omega
lemma Zone.seq (hX:Zone c lo mid spot t s leaves D)(hY:Zone c mid hi spot s u leaves' D')
 (hlo:lo ≤ mid)(hhi:mid≤hi):
 Zone c lo hi spot t u (leaves&&leaves') (D ∪ {x | leaves∧x∈D'}):=
 (hX.weaken le_rfl hhi fun _ h=>h).union (hY.weaken hlo le_rfl fun _ h=>h)
  fun _ _ hx _ hy hb heq=>absurd heq (hX.disjoint hY (.inl le_rfl) hx hy hb)
lemma Zone.both (hX:Zone c lo hi spot t s leaves D)(hY:Zone c lo hi spot u s leaves' D')
 (hc:∀x∈D,∀y∈D',x.Branches c→x.address≠y.address):
 Zone c lo hi spot t s (leaves||leaves') (D ∪ D'):=by
 refine⟨?_,?_,?_,?_,?_⟩
 ·exact hX.mem.imp .inl fun h=>⟨by rw[h.1];rfl,h.2⟩
 ·rintro x (hx|hx)
  ·exact hX.place x hx
  ·exact hY.place x hx
 ·rintro x (hx|hx) w hw
  ·exact (hX.closed x hx w hw).imp .inl fun h=>⟨by rw[h.1];rfl,h.2⟩
  ·exact (hY.closed x hx w hw).imp .inr fun h=>⟨by rw[h.1,Bool.or_true],h.2⟩
 ·rintro x (hx|hx) y (hy|hy) hb heq
  ·exact hX.single x hx y hy hb heq
  ·exact absurd heq (hc x hx y hy hb)
  ·exact absurd heq.symm (hc y hy x hx (hb.congr heq))
  ·exact hY.single x hx y hy hb heq
 ·rintro x (hx|hx)
  ·exact hX.spots x hx
  ·exact hY.spots x hx
lemma zone_wait (hpl:lo≤t.address∧t.address<hi)(hwa:∀w∈t.ways c,leaves∧w=s)
 (hs:∀w,t.waits c=some w→spot (advance w (c.fetch t.address))):
 Zone c lo hi spot t s leaves {t} where
 mem:=.inl rfl
 place:=by
  rintro _ rfl
  exact .inl hpl
 closed:=by
  rintro _ rfl w hw
  exact .inr (hwa w hw)
 single:=by
  rintro _ rfl _ rfl _ _
  rfl
 spots:=by
  rintro _ rfl w hw
  exact .inr (hs w hw)
lemma Zone.cons (hX:Zone c lo hi spot t s leaves D)(hpl:lo≤u.address∧u.address<hi∨c.size≤u.address)
 (hwt:u.waits c=none∨c.fetch u.address=.filler)
 (hwa:∀w∈u.ways c,w∈insert u D∨leaves∧w=s)
 (hc:u.Branches c→∀x∈D,u.address≠x.address):
 Zone c lo hi spot u s leaves (insert u D):=by
 refine⟨.inl (Set.mem_insert u D),?_,?_,?_,?_⟩
 ·rintro x (rfl|hx)
  ·exact hpl
  ·exact hX.place x hx
 ·rintro x (rfl|hx) w hw
  ·exact hwa w hw
  ·exact (hX.closed x hx w hw).imp_left (Set.mem_insert_of_mem u)
 ·rintro x (rfl|hx) y (rfl|hy) hb heq
  ·rfl
  ·exact absurd heq (hc hb y hy)
  ·exact absurd heq.symm (hc (hb.congr heq) x hx)
  ·exact hX.single x hx y hy hb heq
 ·rintro x (rfl|hx) w hw
  ·grind
  ·exact hX.spots x hx w hw
lemma Zone.cycle (hX:Zone c lo hi spot t u leaves D)(hpl:lo≤u.address∧u.address<hi)
 (hwa:u.waits c=none)(hwy:∀w∈u.ways c,w=t∨w=s)
 (hc:∀x∈D,x.Branches c→u.address≠x.address):
 Zone c lo hi spot u s true (insert u D):=by
 have hn:∀w,w∈D∨leaves∧w=u→w∈insert u D:=by tauto
 refine⟨.inl (.inl rfl),?_,?_,?_,?_⟩
 ·rintro x (rfl|hx)
  ·exact .inl hpl
  ·exact hX.place x hx
 ·rintro x (rfl|hx) w hw
  ·rcases hwy w hw with rfl|rfl
   ·exact .inl (hn w hX.mem)
   ·exact .inr ⟨rfl,rfl⟩
  ·exact .inl (hn w (hX.closed x hx w hw))
 ·rintro x (rfl|hx) y (rfl|hy) hb heq
  ·rfl
  ·exact absurd heq (hc y hy (hb.congr heq))
  ·exact absurd heq.symm (hc x hx hb)
  ·exact hX.single x hx y hy hb heq
 ·rintro x (rfl|hx) w hw
  ·rw[hwa]at hw
   cases hw
  ·exact hX.spots x hx w hw
lemma zone_outside (c:Code)(lo hi:Nat)(spot:Thread→Prop)(s:Thread)
 (ht:c.size≤t.address):Zone c lo hi spot t s true {t}:=by
 have hf:=c.fetch_of_size_le _ ht
 rw[←insert_empty_eq]
 refine (zone_nil c lo hi spot s).cons (.inr ht) (.inr hf) (fun w hw=>?_) fun _=>nofun
 simp[ways,hf]at hw
end
/-- A zone beside the one of the start: what they share when a piece is gone through again. -/
structure Beside (c:Code)(F:Face)(flat:Bool)(D0:List Nat→Set Thread)(k:List Nat)
 (leaves:Bool)(D:Set Thread):Prop where
 bare:flat=true→∀u∈D,¬u.Branches c
 apart:leaves=true→F.blank=false→F.apart=true→∀k',∀u∈D,∀u'∈D0 k', u.Branches c→u.address≠u'.address
 agree:F.looped=false→∀u∈D,∀u'∈D0 k,u.Branches c→u.address=u'.address→u=u'
structure Fits (c:Code)(lo hi out:Nat)(spot:List Nat→Thread→Prop)(F:Face)
 (flat:Bool)(firsts:Nat→Prop)(D0:List Nat→Set Thread):Prop where
 le:lo≤hi
 start:∀k,Zone c lo hi (spot k) ⟨lo,k,none⟩ ⟨out,k,none⟩ F.blank (D0 k)
 bare:flat=true→F.entered=false
 entered:F.entered=false→∀k,∀u∈D0 k,¬u.Branches c
 first:∀y,firsts y→∀k,⟨y,k,none⟩∈D0 k
 inner:∀k t,spot k t→∃leaves D,Zone c lo hi (spot k) t ⟨out,k,none⟩ leaves D∧Beside c F flat D0 k leaves D
section
variable {out:Nat}{spot spot1 spot2:List Nat→Thread→Prop}{F F1 F2:Face}
 {flat flat1 flat2:Bool}{firsts firsts₁ firsts₂:Nat→Prop}{D0 D1 D2:List Nat→Set Thread}
lemma Fits.of (hle:lo≤hi)(hst:∀k,Zone c lo hi (spot k) ⟨lo,k,none⟩ ⟨out,k,none⟩ F.blank (D0 k))
 (hba:flat→F.entered=false)
 (he:F.entered=false→∀k,∀u∈D0 k,¬u.Branches c)
 (hf:∀y,firsts y→∀k,⟨y,k,none⟩∈D0 k)
 (hin:∀k t,spot k t→t=⟨lo,k,none⟩∨∃leaves D,
  Zone c lo hi (spot k) t ⟨out,k,none⟩ leaves D∧Beside c F flat D0 k leaves D):
 Fits c lo hi out spot F flat firsts D0:=by
 refine⟨hle,hst,hba,he,hf,fun k t ht=>?_⟩
 rcases hin k t ht with rfl|h
 ·refine⟨F.blank,D0 k,hst k,fun h=>he (hba h) k,fun hl hb=>?_,fun _=>?_⟩
  ·rw[hl]at hb
   cases hb
  ·exact (hst k).single
 ·exact h
lemma fits_nil (c:Code)(a:Nat)(flat:Bool)(hspot:∀k t,spot k t→t=⟨a,k,none⟩)
 (hf:∀y,¬firsts y):Fits c a a a spot .nil flat firsts (fun _=>∅):=
 .of le_rfl (fun _=>zone_nil c a a _ _) (fun _=>rfl) (fun _ _=>nofun)
  (fun y hy=>absurd hy (hf y)) fun k t ht=>.inl (hspot k t ht)
lemma Fits.seq (hX:Fits c lo mid mid spot1 F1 flat1 firsts₁ D1)
 (hY:Fits c mid hi out spot2 F2 flat2 firsts₂ D2)
 (hspot1:∀k t,spot1 k t→spot k t)(hsp2:∀k t,spot2 k t→spot k t)
 (hspot:∀k t,spot k t→spot1 k t∨spot2 k t∨t=⟨lo,k,none⟩)
 (hf:flat→flat1∧flat2)
 (hfs:∀y,firsts y→firsts₁ y∨F1.blank∧firsts₂ y):
 Fits c lo hi out spot (F1.seq F2) flat firsts (fun k=>D1 k ∪ {x | F1.blank∧x∈D2 k}):=by
 have hst2:∀k,Zone c mid hi (spot k) _ _ _ (D2 k):=
  fun k=>(hY.start k).weaken le_rfl le_rfl (hsp2 k)
 refine .of (hX.le.trans hY.le) (fun k=>?_) (fun h=>?_) (fun h k u hu=>?_) (fun y hy k=>?_) ?_
 ·exact ((hX.start k).weaken le_rfl le_rfl (hspot1 k)).seq (hst2 k) hX.le hY.le
 ·simp[Face.seq,hX.bare (hf h).1,hY.bare (hf h).2]
 ·rw[Face.seq,or_eq_false_iff,Bool.and_eq_false_iff]at h
  rcases hu with hu|⟨hb,hu⟩
  ·exact hX.entered h.1 k u hu
  ·exact hY.entered (h.2.resolve_left (by simp[hb])) k u hu
 ·rcases hfs y hy with hy|⟨hb,hy⟩
  ·exact .inl (hX.first y hy k)
  ·exact .inr ⟨hb,hY.first y hy k⟩
 intro k t ht
 rcases hspot k t ht with ht|ht|rfl
 · -- inside of the first piece: behind it lies the start of the second one
  obtain⟨l,D,hD,hbe⟩:=hX.inner k t ht
  refine .inr ⟨_,_,(hD.weaken le_rfl le_rfl (hspot1 k)).seq (hst2 k) hX.le hY.le,?_,?_,?_⟩
  ·rintro h u (hu|⟨-,hu⟩)
   ·exact hbe.bare (hf h).1 u hu
   ·exact hY.entered (hY.bare (hf h).2) k u hu
  ·intro hl hb ha k' u hu u' hu' hbr
   rw[and_eq_true]at hl
   have hbl:F1.blank=false:=by simpa[Face.seq,hl.2]using hb
   have hap:F1.apart:=by simpa[Face.seq,hbl,hl.2]using ha
   have hu':u'∈D1 k':=hu'.resolve_right fun h=>by rw[hbl]at h;cases h.1
   rcases hu with hu|⟨-,hu⟩
   ·exact hbe.apart hl.1 hbl hap k' u hu u' hu' hbr
   ·exact (hY.start k).disjoint (hX.start k') (.inr le_rfl) hu hu' hbr
  intro hlo u hu u' hu' hbr heq
  rw[Face.seq,or_eq_false_iff]at hlo
  rcases hu with hu|⟨-,hu⟩
  ·rcases hu' with hu'|⟨-,hu'⟩
   ·exact hbe.agree hlo.1 u hu u' hu' hbr heq
   ·exact absurd heq (hD.disjoint (hY.start k) (.inl le_rfl) hu hu' hbr)
  ·rcases hu' with hu'|⟨-,hu'⟩
   ·exact absurd heq ((hY.start k).disjoint (hX.start k) (.inr le_rfl) hu hu' hbr)
   ·exact (hY.start k).single u hu u' hu' hbr heq
 ·obtain⟨l,D,hD,hbe⟩:=hY.inner k t ht
  refine .inr ⟨l,D,hD.weaken hX.le le_rfl (hsp2 k),fun h=>hbe.bare (hf h).2,?_,?_⟩
  ·intro hl hb ha k' u hu u' hu' hbr
   rcases hu' with hu'|⟨hbl,hu'⟩
   ·exact hD.disjoint (hX.start k') (.inr le_rfl) hu hu' hbr
   ·have hb:F2.blank=false:=by simpa[Face.seq,hbl]using hb
    have hap:F2.apart:=by simpa[Face.seq,hbl]using ha
    exact hbe.apart hl hb hap k' u hu u' hu' hbr
  ·intro hlo u hu u' hu' hbr heq
   rw[Face.seq,or_eq_false_iff,Bool.and_eq_false_iff]at hlo
   rcases hu' with hu'|⟨hbl,hu'⟩
   ·exact absurd heq (hD.disjoint (hX.start k) (.inr le_rfl) hu hu' hbr)
   ·exact hbe.agree (hlo.2.resolve_left (by simp[hbl])) u hu u' hu' hbr heq
 ·exact .inl rfl
variable {d:Int}{f:Bool}{id:Nat}
lemma Fits.jump (hX:Fits c lo mid mid spot F flat firsts D0)(hj:c.fetch mid=.jump d)(hd:(mid:Int)+d=out):
 Fits c lo (mid+3) out spot F flat firsts (fun k=>D0 k ∪ {x | F.blank∧x=⟨mid,k,none⟩}):=by
 have hle:=hX.le
 have hs:∀k,Zone c mid (mid+3) (spot k) ⟨mid,k,none⟩ ⟨out,k,none⟩ true {⟨mid,k,none⟩}:=by
  intro k
  rw[←insert_empty_eq]
  refine (zone_nil c _ _ _ _).cons (.inl ⟨le_rfl,by dsimp only;omega⟩)
   (.inl (by simp only[Thread.waits,hj])) (fun w hw=>.inr ⟨rfl,?_⟩) fun _=>nofun
  rw[(mem_ways_jump hj).1 hw,c.target_eq hd]
 have hdu:∀k,¬(⟨mid,k,none⟩:Thread).Branches c:=by
  intro k h
  simp[Thread.Branches,Code.branch?,hj]at h
 have hz:∀{k t l D},Zone c lo mid (spot k) t ⟨mid,k,none⟩ l D→
  Zone c lo (mid+3) (spot k) t ⟨out,k,none⟩ l (D ∪ {x | l∧x=⟨mid,k,none⟩}):=by
  intro k t l D hD
  have:=hD.seq (hs k) hle (by omega)
  rwa[Bool.and_true]at this
 have hm:∀{k l D u},u∈D ∪ {x:Thread | l∧x=⟨mid,k,none⟩}→u.Branches c→u∈D:=by grind
 refine⟨by omega,fun k=>hz (hX.start k),hX.bare,fun h k u hu hb=>?_,
  fun y hy k=>.inl (hX.first y hy k),fun k t ht=>?_⟩
 ·exact hX.entered h k u (hm hu hb) hb
 obtain⟨l,D,hD,hbe⟩:=hX.inner k t ht
 refine⟨l,_,hz hD,fun h u hu hb=>?_,fun hl hb ha k' u hu u' hu' hbr heq=>?_,fun hlo u hu u' hu' hbr heq=>?_⟩
 ·exact hbe.bare h u (hm hu hb) hb
 ·exact hbe.apart hl hb ha k' u (hm hu hbr) u' (hm hu' (hbr.congr heq)) hbr heq
 ·exact hbe.agree hlo u (hm hu hbr) u' (hm hu' (hbr.congr heq)) hbr heq
lemma fits_alt (hs:c.fetch a=.split f id d)(hd:(a:Int)+d=mid)
 (hX:Fits c (a+4) mid out spot1 F1 flat1 firsts₁ D1)(hY:Fits c mid hi out spot2 F2 flat2 firsts₂ D2)
 (hspot1:∀k t,spot1 k t→spot k t)(hsp2:∀k t,spot2 k t→spot k t)
 (hspot:∀k t,spot k t→spot1 k t∨spot2 k t∨t=⟨a,k,none⟩)
 (hf:∀y,firsts y→y=a∨firsts₁ y):
 Fits c a hi out spot (F1.alt F2) false firsts (fun k=>insert ⟨a,k,none⟩ (D1 k ∪ D2 k)):=by
 have hle:=hX.le
 have hle':=hY.le
 have hh:∀{k l1 l2 t1 t2 D D' x},Zone c (a+4) mid (spot1 k) t1 ⟨out,k,none⟩ l1 D→
  Zone c mid hi (spot2 k) t2 ⟨out,k,none⟩ l2 D'→x∈D ∪ D'→x.Branches c→a≠x.address:=by
  rintro k l1 l2 t1 t2 D D' x hD hD' (hx|hx) hb
  ·have:=hD.branch_place hx hb
   omega
  ·have:=hD'.branch_place hx hb
   omega
 have hst:∀k,Zone c a hi (spot k) ⟨a,k,none⟩ ⟨out,k,none⟩ (F1.alt F2).blank
  (insert ⟨a,k,none⟩ (D1 k ∪ D2 k)):=by
  intro k
  have hbo:=((hX.start k).weaken (show a≤a+4 by omega) hle' (hspot1 k)).both
   ((hY.start k).weaken (show a ≤ mid by omega) le_rfl (hsp2 k))
   fun x hx y hy hb=>(hX.start k).disjoint (hY.start k) (.inl le_rfl) hx hy hb
  refine hbo.cons (.inl ⟨le_rfl,by dsimp only;omega⟩)
   (.inl (by simp only[Thread.waits,hs])) (fun w hw=>?_) fun hb x hx heq=>?_
  ·rcases (mem_ways_split hs).1 hw with rfl|rfl
   ·rcases (hX.start k).mem with h|⟨h,heq⟩
    ·exact .inl (.inr (.inl h))
    ·exact .inr ⟨by rw[h];rfl,heq⟩
   ·rw[c.target_eq hd]
    rcases (hY.start k).mem with h|⟨h,heq⟩
    ·exact .inl (.inr (.inr h))
    ·exact .inr ⟨by rw[h,Bool.or_true],heq⟩
  ·exact hh (hX.start k) (hY.start k) hx (hb.congr heq) heq
 refine .of (by omega) hst (by simp) (by rintro⟨⟩) (fun y hy k=>?_) fun k t ht=>?_
 ·rcases hf y hy with rfl|hy
  ·exact .inl rfl
  ·exact .inr (.inl (hX.first y hy k))
 rcases hspot k t ht with ht|ht|rfl
 ·obtain⟨l,D,hD,hbe⟩:=hX.inner k t ht
  refine .inr ⟨l,D,hD.weaken (by omega) hle' (hspot1 k),by simp,?_,?_⟩
  ·intro hl hb ha k' u hu u' hu' hbr
   rw[Face.alt,Bool.or_eq_false_iff]at hb
   rw[Face.alt,Bool.and_eq_true]at ha
   rcases hu' with rfl|hu'|hu'
   ·exact (hh hD (hY.start k) (.inl hu) hbr).symm
   ·exact hbe.apart hl hb.1 ha.1 k' u hu u' hu' hbr
   ·exact hD.disjoint (hY.start k') (.inl le_rfl) hu hu' hbr
  intro hlo u hu u' hu' hbr heq
  rw[Face.alt,Bool.or_eq_false_iff]at hlo
  rcases hu' with rfl|hu'|hu'
  ·exact absurd heq (hh hD (hY.start k) (.inl hu) hbr).symm
  ·exact hbe.agree hlo.1 u hu u' hu' hbr heq
  ·exact absurd heq (hD.disjoint (hY.start k) (.inl le_rfl) hu hu' hbr)
 ·obtain⟨l,D,hD,hbe⟩:=hY.inner k t ht
  refine .inr ⟨l,D,hD.weaken (by omega) le_rfl (hsp2 k),by simp,?_,?_⟩
  ·intro hl hb ha k' u hu u' hu' hbr
   rw[Face.alt,Bool.or_eq_false_iff]at hb
   rw[Face.alt,Bool.and_eq_true]at ha
   rcases hu' with rfl|hu'|hu'
   ·exact (hh (hX.start k) hD (.inr hu) hbr).symm
   ·exact hD.disjoint (hX.start k') (.inr le_rfl) hu hu' hbr
   ·exact hbe.apart hl hb.2 ha.2 k' u hu u' hu' hbr
  intro hlo u hu u' hu' hbr heq
  rw[Face.alt,Bool.or_eq_false_iff]at hlo
  rcases hu' with rfl|hu'|hu'
  ·exact absurd heq (hh (hX.start k) hD (.inr hu) hbr).symm
  ·exact absurd heq (hD.disjoint (hX.start k) (.inr le_rfl) hu hu' hbr)
  ·exact hbe.agree hlo.2 u hu u' hu' hbr heq
 ·exact .inl rfl
lemma Beside.again (h:Beside c F flat D0 k leaves D)
 (hr:F.recurs)(hl:leaves):∀u∈D,∀u'∈D0 k,u.Branches c→u.address=u'.address→u=u':=by
 intro u hu u' hu' hb heq
 rw[Face.recurs,Bool.or_eq_true,not_eq_true',and_eq_true,not_eq_true']at hr
 rcases hr with hlo|⟨hbl,ha⟩
 ·exact h.agree hlo u hu u' hu' hb heq
 ·exact absurd heq (h.apart hl hbl ha k u hu u' hu' hb)
lemma fits_star (hs:c.fetch a=.split f id d)(hd:(a:Int)+d=out)
 (hX:Fits c (a+4) hi a spot1 F flat1 firsts₁ D1)(hr:F.recurs)
 (hspot1:∀k t,spot1 k t→spot k t)(hspot:∀k t,spot k t→spot1 k t∨t=⟨a,k,none⟩)
 (hf:∀y,firsts y→y=a):
 Fits c a hi out spot F.option false firsts (fun k=>insert ⟨a,k,none⟩ (D1 k)):=by
 have hle:=hX.le
 have hh:∀{k l t D x},Zone c (a+4) hi (spot1 k) t ⟨a,k,none⟩ l D→x∈D→x.Branches c→a≠x.address:=by
  intro k l t D x hD hx hb
  have:=hD.branch_place hx hb
  omega
 have hst:∀k,Zone c a hi (spot k) ⟨a,k,none⟩ ⟨out,k,none⟩ true (insert ⟨a,k,none⟩ (D1 k)):=by
  intro k
  refine ((hX.start k).weaken (show a≤a+4 by omega) le_rfl (hspot1 k)).cycle
   ⟨le_rfl,by dsimp only;omega⟩ (by simp only[waits,hs]) (fun w hw=>?_)
   fun x hx hb=>hh (hX.start k) hx hb
  have hw:=(mem_ways_split hs).1 hw
  rwa[c.target_eq hd]at hw
 have hbl:F.option.blank:=or_true _
 refine .of (by omega) (fun k=>by rw[hbl];exact hst k) (by simp) (by rintro⟨⟩)
  (fun y hy k=>?_) fun k t ht=>?_
 ·rw[hf y hy]
  exact .inl rfl
 rcases hspot k t ht with ht|rfl
 ·obtain⟨l,D,hD,hbe⟩:=hX.inner k t ht
  refine .inr ⟨_,_,(hD.weaken (by omega) le_rfl (hspot1 k)).union (hst k) ?_,by simp,?_,?_⟩
  ·rintro hl x hx y (rfl|hy) hb heq
   ·exact absurd heq.symm (hh hD hx hb)
   ·exact hbe.again hr hl x hx y hy hb heq
  ·grind
  intro hlo u hu u' hu' hb heq
  rw[Face.option,Face.alt,or_eq_false_iff]at hlo
  rcases hu with hu|⟨-,hu⟩
  ·rcases hu' with rfl|hu'
   ·exact absurd heq.symm (hh hD hu hb)
   ·exact hbe.agree hlo.1 u hu u' hu' hb heq
  ·exact (hst k).single u hu u' hu' hb heq
 ·exact .inl rfl
lemma fits_plus (hsp:c.fetch mid=.split f id d)
 (hba:firsts (c.target mid d)∨c.size≤c.target mid d)(hX:Fits c lo mid mid spot F flat1 firsts D1)
 (hr:F.recurs):
 ∃D0,Fits c lo (mid+4) (mid+4) spot F.plus false firsts D0:=by
 have hle:=hX.le
 have hh:∀{k l t D x},Zone c lo mid (spot k) t ⟨mid,k,none⟩ l D→x∈D→x.Branches c→
  mid≠x.address:=by
  intro k l t D x hD hx hb
  have:=hD.branch_place hx hb
  omega
 -- the branch leads back to the start, or out of the code
 obtain⟨B,hB,hs⟩:∃B:List Nat→Set Thread,(∀k,∃l,Zone c lo (mid+4) (spot k)
  ⟨c.target mid d,k,none⟩ ⟨mid,k,none⟩ l (B k))∧
  ∀k,∀x∈B k,x.Branches c→x∈D1 k:=by
  rcases hba with hf|ho
  ·refine⟨D1,fun k=>⟨F.blank,?_⟩,fun _ _ hx _=>hx⟩
   have hD:=(hX.start k).weaken le_rfl (show mid ≤ mid+4 by omega) fun _ h=>h
   exact⟨.inl (hX.first _ hf k),hD.place,hD.closed,hD.single,hD.spots⟩
  ·refine⟨fun k=>{⟨c.target mid d,k,none⟩},fun k=>⟨true,zone_outside c _ _ _ _ ho⟩,?_⟩
   rintro k x rfl hb
   have:=hb.lt
   dsimp only at this
   omega
 have hc:∀k,Zone c lo (mid+4) (spot k) ⟨mid,k,none⟩ ⟨mid+4,k,none⟩ true
  (insert ⟨mid,k,none⟩ (B k)):=by
  intro k
  obtain⟨l,hz⟩:=hB k
  refine hz.cycle ⟨hle,by dsimp only;omega⟩ (by simp only[Thread.waits,hsp])
   (fun w hw=>((mem_ways_split hsp).mp hw).symm)
   fun x hx hb=>hh (hX.start k) (hs k x hx hb) hb
 have hz:∀{k t l D},Zone c lo mid (spot k) t ⟨mid,k,none⟩ l D→
  (l→∀u∈D,∀u'∈D1 k,u.Branches c→u.address=u'.address→u=u')→
  Zone c lo (mid+4) (spot k) t ⟨mid+4,k,none⟩ l
   (D ∪ {x | l∧x∈insert ⟨mid,k,none⟩ (B k)}):=by
  intro k t l D hD hcr
  have hun:=(hD.weaken le_rfl (show mid ≤ mid+4 by omega) fun _ h=>h).union (hc k)
   (by
    rintro hl x hx y (rfl|hy) hb heq
    ·exact absurd heq.symm (hh hD hx hb)
    ·exact hcr hl x hx y (hs k y hy (hb.congr heq)) hb heq)
  rwa[Bool.and_true]at hun
 refine⟨_,.of (by omega) (fun k=>hz (hX.start k) fun _=>(hX.start k).single) (by simp) ?_ ?_ ?_⟩
 ·intro h k u hu hb
  rw[Face.plus,Bool.or_eq_false_iff]at h
  rcases hu with hu|⟨hl,-⟩
  ·exact hX.entered h.1 k u hu hb
  ·have hl:F.blank:=hl
   rw[h.2]at hl
   cases hl
 ·exact fun y hy k=>.inl (hX.first y hy k)
 intro k t ht
 obtain⟨l,D,hD,hbe⟩:=hX.inner k t ht
 refine .inr ⟨l,_,hz hD (hbe.again hr),by simp,?_,?_⟩
 ·intro hl hbl hap k' u hu u' hu' hb heq
  have hbl:F.blank=false:=hbl
  have he:F.entered=false:=(Bool.not_eq_true' _).mp hap
  rcases hu' with hu'|⟨hl',-⟩
  ·exact hX.entered he k' u' hu' (hb.congr heq)
  grind
 intro hlo u hu u' hu' hb heq
 have ha:∀x∈D ∪ insert ⟨mid,k,none⟩ (B k),∀y∈D1 k ∪ insert ⟨mid,k,none⟩ (B k),
  x.Branches c→x.address=y.address→x=y:=by
  rintro x (hx|rfl|hx) y (hy|rfl|hy) hb heq
  ·exact hbe.agree hlo x hx y hy hb heq
  ·exact absurd heq.symm (hh hD hx hb)
  ·exact hbe.agree hlo x hx y (hs k y hy (hb.congr heq)) hb heq
  ·exact absurd heq (hh (hX.start k) hy (hb.congr heq))
  ·rfl
  ·exact absurd heq (hh (hX.start k) (hs k y hy (hb.congr heq)) (hb.congr heq))
  ·exact (hX.start k).single x (hs k x hx hb) y hy hb heq
  ·exact absurd heq.symm (hh (hX.start k) (hs k x hx hb) hb)
  ·exact (hX.start k).single x (hs k x hx hb) y (hs k y hy (hb.congr heq)) hb heq
 exact ha u (hu.imp_right And.right) u' (hu'.imp_right And.right) hb heq
section
variable {backwards:Bool}{e:Node}{least most x:Nat}(hlp:LoopLaid c backwards e least most x)
 (hX:Fits c (x+9) (x+9+e.codeSize) (x+9+e.codeSize) spot1 F flat1 firsts₁ D1)
 (hspot1:∀k m t,m < max 1 (max least most)→spot1 (m::k) t→spot k t)
 (hspot:∀k t,spot k t→(∃m < max 1 (max least most),spot1 (m::k) t)∨t=⟨x,k,none⟩)
include hlp in
lemma LoopLaid.not_branches_start:¬(⟨x,k,none⟩:Thread).Branches c:=by
 obtain⟨g,hf⟩:=hlp.start
 simp[Thread.Branches,Code.branch?,hf]
include hlp in
lemma LoopLaid.not_branches_stop:¬(⟨x+9+e.codeSize,k,none⟩:Thread).Branches c:=by
 obtain⟨g,hf⟩:=hlp.stop
 simp[Thread.Branches,Code.branch?,hf]
include hspot1 in
lemma Zone.of_body {m:Nat}{l:Bool}(hm:m < max 1 (max least most))
 (hD:Zone c (x+9) (x+9+e.codeSize) (spot1 (m::k)) t s l D):
 Zone c x (x+(e.codeSize+18)) (spot k) t s l D:=
 hD.weaken (by omega) (by omega) fun t h=>hspot1 k m t hm h
include hlp in
lemma Zone.of_rounds (hD:Zone c x (x+(e.codeSize+18)) (spot k) ⟨x+9,0::k,none⟩
  ⟨x+(e.codeSize+18),k,none⟩ true D):
 Zone c x (x+(e.codeSize+18)) (spot k) ⟨x,k,none⟩ ⟨x+(e.codeSize+18),k,none⟩ true (insert ⟨x,k,none⟩ D):=by
 refine hD.cons (.inl ⟨le_rfl,by dsimp only;omega⟩) (.inl hlp.waits_start) (fun w hw=>?_)
  fun hb=>absurd hb hlp.not_branches_start
 rcases hlp.ways_start hw with rfl|rfl
 ·exact hD.mem.imp_left .inr
 ·exact .inr ⟨rfl,rfl⟩
include hlp hX hspot1 hspot
lemma fits_loop_bare (hf:flat1):
 ∃D0,Fits c x (x+(e.codeSize+18)) (x+(e.codeSize+18)) spot (F.loop (max least most)) flat
  (fun y=>y=x) D0:=by
 have he:=hX.bare hf
 let W:List Nat→Set Thread:=fun k=>{u | ∃m < max 1 (max least most),u=⟨x+9+e.codeSize,m::k,none⟩∨u∈D1 (m::k)}
 have hdu:∀k,∀u∈W k,¬u.Branches c:=by
  rintro k u ⟨m,-,rfl|hu⟩
  ·exact hlp.not_branches_stop
  ·exact hX.entered he _ u hu
 have hrd:∀k,∀m < max 1 (max least most),∀w,w∈D1 (m::k)∨F.blank∧w=⟨x+9+e.codeSize,m::k,none⟩→w∈W k:=by
  grind
 have hz:∀k,∀t∈W k,Zone c x (x+(e.codeSize+18)) (spot k) t ⟨x+(e.codeSize+18),k,none⟩ true (W k):=by
  intro k t ht
  refine⟨.inl ht,?_,?_,fun u hu _ _ hb=>absurd hb (hdu k u hu),?_⟩
  ·rintro u ⟨m,hm,rfl|hu⟩
   ·exact .inl ⟨by dsimp only;omega,by dsimp only;omega⟩
   ·exact (Zone.of_body hspot1 hm (hX.start _)).place u hu
  ·rintro u ⟨m,hm,rfl|hu⟩ w hw
   ·rcases hlp.ways_stop hw with⟨hlt,rfl⟩|rfl
    ·exact .inl (hrd k (m+1) (by omega) _ (hX.start _).mem)
    ·exact .inr ⟨rfl,rfl⟩
   ·exact .inl (hrd k m hm w ((hX.start _).closed u hu w hw))
  ·rintro u ⟨m,hm,rfl|hu⟩ w hw
   ·rw[hlp.waits_stop]at hw
    cases hw
   ·exact (Zone.of_body hspot1 hm (hX.start _)).spots u hu w hw
 refine⟨fun k=>insert ⟨x,k,none⟩ (W k),.of (by omega) (fun k=>?_) (fun _=>he) ?_ ?_
  fun k t ht=>?_⟩
 ·exact .of_rounds hlp (hz k _ (hrd k 0 (by omega) _ (hX.start _).mem))
 ·rintro - k u (rfl|hu)
  ·exact hlp.not_branches_start
  ·exact hdu k u hu
 ·rintro y rfl k
  exact .inl rfl
 rcases hspot k t ht with⟨m,hm,ht⟩|rfl
 ·obtain⟨l,D,hD,hbe⟩:=hX.inner (m::k) t ht
  have hun:=(Zone.of_body hspot1 hm hD).union (hz k _ ⟨m,hm,.inl rfl⟩)
   fun _ u hu _ _ hb=>absurd hb (hbe.bare hf u hu)
  have hba:∀u∈D ∪ {u | l∧u∈W k},¬u.Branches c:=by
   rintro u (hu|⟨-,hu⟩)
   ·exact hbe.bare hf u hu
   ·exact hdu k u hu
  exact .inr ⟨_,_,hun,fun _=>hba,fun _ _ _ _ u hu _ _ hb=>absurd hb (hba u hu),
   fun _ u hu _ _ hb=>absurd hb (hba u hu)⟩
 ·exact .inl rfl
lemma fits_loop_waiting (hf:flat→flat1)(hwa:max least most≤1∨F.blank=false∧F.apart):
 ∃D0,Fits c x (x+(e.codeSize+18)) (x+(e.codeSize+18)) spot (F.loop (max least most)) flat
  (fun y=>y=x) D0:=by
 -- what follows a round: its end, and the start of the next one
 let B:List Nat→Nat→Set Thread:=fun k m=>insert ⟨x+9+e.codeSize,m::k,none⟩
  {u | m+1 < max least most∧u∈D1 ((m+1)::k)}
 have hbr:∀{k m u},u∈B k m→u.Branches c→m+1 < max least most∧u∈D1 ((m+1)::k):=by
  rintro k m u (rfl|hu) hb
  ·exact absurd hb hlp.not_branches_stop
  ·exact hu
 have hbh:∀k m,Zone c x (x+(e.codeSize+18)) (spot k)
  ⟨x+9+e.codeSize,m::k,none⟩ ⟨x+(e.codeSize+18),k,none⟩ true (B k m):=by
  intro k m
  have hpl:x≤x+9+e.codeSize∧x+9+e.codeSize<x+(e.codeSize+18):=by omega
  by_cases hlt:m+1 < max least most
  ·have hbl:F.blank=false:=(hwa.resolve_left (by omega)).1
   have hn:Zone c x (x+(e.codeSize+18)) (spot k) ⟨x+9,(m+1)::k,none⟩ ⟨x+(e.codeSize+18),k,none⟩ true
    {u | m+1 < max least most∧u∈D1 ((m+1)::k)}:=by
    simp only[hlt,true_and]
    refine (Zone.of_body hspot1 (by omega) (hX.start _)).relax fun hl=>?_
    rw[hbl]at hl
    cases hl
   refine hn.cons (.inl hpl) (.inl hlp.waits_stop) (fun w hw=>?_)
    fun hb=>absurd hb hlp.not_branches_stop
   rcases hlp.ways_stop hw with⟨-,rfl⟩|rfl
   ·exact hn.mem.imp_left .inr
   ·exact .inr ⟨rfl,rfl⟩
  ·have hno:{u | m+1 < max least most∧u∈D1 ((m+1)::k)}=∅:=by simp[hlt]
   simp only[B,hno]
   refine (zone_nil c _ _ _ _).cons (.inl hpl) (.inl hlp.waits_stop) (fun w hw=>?_)
    fun hb=>absurd hb hlp.not_branches_stop
   exact .inr ⟨rfl,(hlp.ways_stop hw).resolve_left fun h=>hlt h.1⟩
 have he:F.entered=false→∀k m,∀u∈B k m,¬u.Branches c:=
  fun h k m u hu hb=>hX.entered h _ u (hbr hu hb).2 hb
 -- a round that is left at once is the only one
 have hla:∀{k u},F.blank→u∈B k 0→¬u.Branches c:=by
  intro k u hbl hu hb
  rcases hwa with h|h
  ·have:=(hbr hu hb).1
   omega
  ·rw[hbl]at h
   cases h.1
 have hst:∀{k u},u∈insert (⟨x,k,none⟩:Thread)
  (D1 (0::k) ∪ {u | F.blank∧u∈B k 0})→u.Branches c→u∈D1 (0::k):=by
  rintro k u (rfl|hu|⟨hbl,hu⟩) hb
  ·exact absurd hb hlp.not_branches_start
  ·exact hu
  ·exact absurd hb (hla hbl hu)
 refine⟨fun k=>insert ⟨x,k,none⟩ (D1 (0::k) ∪ {u | F.blank∧u∈B k 0}),
  .of (by omega) (fun k=>.of_rounds hlp ?_) (fun h=>hX.bare (hf h)) ?_ ?_ fun k t ht=>?_⟩
 ·refine ((Zone.of_body hspot1 (by omega) (hX.start _)).union (hbh k 0) ?_).relax fun _=>⟨rfl,rfl⟩
  exact fun hbl u _ u' hu' hb heq=>absurd (hb.congr heq) (hla hbl hu')
 ·exact fun h k u hu hb=>hX.entered h _ u (hst hu hb) hb
 ·rintro y rfl k
  exact .inl rfl
 rcases hspot k t ht with⟨m,hm,ht⟩|rfl
 ·obtain⟨l,D,hD,hbe⟩:=hX.inner (m::k) t ht
  refine .inr ⟨_,_,(Zone.of_body hspot1 hm hD).union (hbh k m) ?_,?_,nofun,?_⟩
  ·intro hl u hu u' hu' hb heq
   obtain⟨hlt,hu'⟩:=hbr hu' (hb.congr heq)
   obtain⟨hbl,ha⟩:=hwa.resolve_left (by omega)
   exact absurd heq (hbe.apart hl hbl ha _ u hu u' hu' hb)
  ·rintro h u (hu|⟨-,hu⟩)
   ·exact hbe.bare (hf h) u hu
   ·exact he (hX.bare (hf h)) k m u hu
  intro hlo u hu u' hu' hb heq
  have hu':=hst hu' (hb.congr heq)
  rw[Face.loop]at hlo
  split at hlo
  · -- the only round
   obtain rfl:m=0:=by omega
   rcases hu with hu|⟨-,hu⟩
   ·exact hbe.agree hlo u hu u' hu' hb heq
   ·have:=(hbr hu hb).1
    omega
  ·exact absurd (hb.congr heq) (hX.entered hlo _ u' hu')
 ·exact .inl rfl
end
end
end PatternScan.Regex