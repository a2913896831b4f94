import PatternScan.Proofs.Except
import PatternScan.Proofs.Regex.Layout
/-! Emitting a pattern appends its code, with fresh numbers for its branches, and lets the entries of
its anchors refer to that code. -/
open PatternScan.Regex.Code
namespace PatternScan.Regex
open Emission.Mode Entry False
def Entry.refer (back:Bool)(x:Entry):Option Nat→Entry
 | none=>x
 | some s=>if back then {x with backward:=some s} else {x with forward:=some s}
lemma Entry.refer_refer (back:Bool)(x:Entry)(s t:Option Nat):
 (x.refer back s).refer back t=x.refer back (t.or s):=by
 cases s<;>cases t<;>cases back<;>rfl
def Inst.aim (i:Inst)(d:Int):Inst:=
 match i with
 | .split first id _=>.split first id d
 | .jump _=>.jump d
 | .repeatStart g lo hi _=>.repeatStart g lo hi d
 | i=>i
lemma Inst.split_of_aim {i:Inst}{f:Bool}{id:Nat}{d d':Int}(h:i.aim d=.split f id d'):∃d0,i=.split f id d0:=by
 cases i with
 | split _ _ d0=>
  cases h
  exact⟨d0,rfl⟩
 | _=>cases h
lemma modify_eq_mapIdx {α:Type}(a:Array α)(i:Nat)(f:α→α):
 a.modify i f=a.mapIdx fun k x=>if k=i then f x else x:=by
 grind
namespace Emission
open Node (hasLoop hasEpilog loopLow loopHigh)
variable {a x:Nat}{d:Int}
/-- One emission continues another: the code is appended, and its branches are numbered upwards. -/
structure Grows (e e':Emission):Prop where
 size_le:e.code.size≤e'.code.size
 fetch_eq:∀x<e.code.size,e'.code.fetch x=e.code.fetch x
 splits_le:e.splits≤e'.splits
 branch:∀x f id d,e.code.size≤x→e'.code.fetch x=.split f id d→e.splits ≤ id∧id<e'.splits
 branch_lt:∀x y f id d f' id' d',e.code.size≤x→x<y→
  e'.code.fetch x=.split f id d→e'.code.fetch y=.split f' id' d'→id < id'

/-- An emission that appends code of a given size and sets the references of given anchors. -/
structure Emitted (back:Bool)(e e':Emission)(size:Nat)(seat:Nat→Option Nat):Prop
 extends Grows e e' where
 size_eq:e'.code.size=e.code.size+size
 entries_eq:e'.entries=e.entries.mapIdx fun k x=>x.refer back (seat k)
lemma mapIdx_refer_none (back:Bool)(entries:Array Entry):
 (entries.mapIdx fun _ x=>x.refer back none)=entries:=by
 ext1
 ·simp
 ·simp[refer]
lemma Emitted.refl (back:Bool)(e:Emission):Emitted back e e 0 fun _=>none where
 size_le:=le_rfl
 fetch_eq _ _:=rfl
 splits_le:=le_rfl
 branch x f id d hx hf:=by
  rw[fetch_of_size_le _ _ hx]at hf
  cases hf
 branch_lt x y f id d f' id' d' hx _ hf _:=by
  rw[fetch_of_size_le _ _ hx]at hf
  cases hf
 size_eq:=rfl
 entries_eq:=(mapIdx_refer_none back e.entries).symm
variable {back:Bool}{e e':Emission}{n:Nat}{s:Nat→Option Nat}
lemma Emitted.trans {e0 e1 e2:Emission}{m:Nat}{t:Nat→Option Nat}
 (h:Emitted back e0 e1 m s)(h':Emitted back e1 e2 n t):
 Emitted back e0 e2 (m+n) fun k=>(t k).or (s k) where
 size_le:=h.size_le.trans h'.size_le
 fetch_eq x hx:=(h'.fetch_eq x (hx.trans_le h.size_le)).trans (h.fetch_eq x hx)
 splits_le:=h.splits_le.trans h'.splits_le
 branch x f id d hx hf:=by
  have h1:=h.splits_le
  have h2:=h'.splits_le
  rcases lt_or_ge x e1.code.size with hlt|hge
  ·rw[h'.fetch_eq x hlt]at hf
   have:=h.branch x f id d hx hf
   omega
  ·have:=h'.branch x f id d hge hf
   omega
 branch_lt x y f id d f' id' d' hx hxy hf hf':=by
  rcases lt_or_ge x e1.code.size with hlt|hge
  ·rw[h'.fetch_eq x hlt]at hf
   rcases lt_or_ge y e1.code.size with hlt'|hge'
   ·rw[h'.fetch_eq y hlt']at hf'
    exact h.branch_lt x y f id d f' id' d' hx hxy hf hf'
   ·have h1:=h.branch x f id d hx hf
    have h2:=h'.branch y f' id' d' hge' hf'
    omega
  ·exact h'.branch_lt x y f id d f' id' d' hge hxy hf hf'
 size_eq:=by rw[h'.size_eq,h.size_eq,add_assoc]
 entries_eq:=by
  rw[h'.entries_eq,h.entries_eq,Array.mapIdx_mapIdx]
  simp only[Function.comp_def,refer_refer]
lemma Emitted.congr {m:Nat}{t:Nat→Option Nat}(h:Emitted back e e' m s)(hn:m=n)(hs:∀k,s k=t k):
 Emitted back e e' n t:=by
 rw[←hn,←funext hs]
 exact h
lemma emitted_push (back:Bool)(e:Emission)(i:Inst)(hi:∀f id d,i≠.split f id d):
 Emitted back e (e.push i) i.size fun _=>none where
 size_le:=by
  rw[push,size_push]
  exact Nat.le_add_right _ _
 fetch_eq x hx:=fetch_push_of_lt _ _ _ hx
 splits_le:=le_rfl
 branch x f id d hx hf:=by
  exfalso
  rcases hx.eq_or_lt with rfl|hlt
  ·exact hi f id d (by rw[←hf,push,fetch_push_size])
  ·rw[push,fetch_push_of_gt _ _ _ hlt]at hf
   cases hf
 branch_lt x y f id d f' id' d' hx hxy hf hf':=by
  rw[push,fetch_push_of_gt _ _ _ (hx.trans_lt hxy)]at hf'
  cases hf'
 size_eq:=size_push _ _
 entries_eq:=(mapIdx_refer_none back e.entries).symm
lemma fetch_push (e:Emission)(i:Inst):(e.push i).code.fetch e.code.size=i:=
 fetch_push_size _ _
lemma emitted_pushSplit (back:Bool){e e':Emission}{f:Bool}(h:e.pushSplit f d=.ok e'):
 Emitted back e e' 4 (fun _=>none)∧e'.code.fetch e.code.size=.split f e.splits d:=by
 rw[pushSplit]at h
 split at h
 ·cases h
 cases h
 refine⟨⟨⟨?_,fun x hx=>fetch_push_of_lt _ _ _ hx,Nat.le_succ _,?_,?_⟩,
  size_push _ _,(mapIdx_refer_none back e.entries).symm⟩,fetch_push_size _ _⟩
 ·rw[size_push]
  exact Nat.le_add_right _ _
 ·intro x f id d hx hf
  rcases hx.eq_or_lt with rfl|hlt
  ·rw[fetch_push_size]at hf
   grind
  ·rw[fetch_push_of_gt _ _ _ hlt]at hf
   cases hf
 ·intro x y f id d f' id' d' hx hxy hf hf'
  rw[fetch_push_of_gt _ _ _ (hx.trans_lt hxy)]at hf'
  cases hf'
lemma fetch_setDistance_of_ne (e:Emission)(d:Int)(h:x≠a):(e.setDistance a d).code.fetch x=e.code.fetch x:=by
 rw[setDistance,fetch_patch,if_neg fun hx=>h hx.1]
lemma fetch_setDistance (e:Emission)(d:Int)(h:a<e.code.size):
 (e.setDistance a d).code.fetch a=(e.code.fetch a).aim d:=by
 rw[setDistance,fetch_patch,if_pos ⟨rfl,h⟩]
 rfl
lemma split_of_setDistance (e:Emission){d':Int}{f:Bool}{id:Nat}
 (h:(e.setDistance a d).code.fetch x=.split f id d'):
 ∃d0,e.code.fetch x=.split f id d0:=by
 rcases eq_or_ne x a with rfl|hne
 ·rcases lt_or_ge x e.code.size with hlt|hge
  ·rw[fetch_setDistance e d hlt]at h
   exact Inst.split_of_aim h
  ·have hs:(e.setDistance x d).code.size=e.code.size:=size_patch _ _ _
   rw[fetch_of_size_le _ _ (hs▸hge)]at h
   cases h
 ·exact⟨d',by rw[←h,fetch_setDistance_of_ne e d hne]⟩
lemma Emitted.setDistance (h:Emitted back e e' n s){a:Nat}(d:Int)(ha:e.code.size≤a):
 Emitted back e (e'.setDistance a d) n s where
 size_le:=h.size_le.trans_eq (size_patch _ _ _).symm
 fetch_eq x hx:=by rw[fetch_setDistance_of_ne e' d (by omega),h.fetch_eq x hx]
 splits_le:=h.splits_le
 branch x f id d' hx hf:=by
  obtain⟨d0,hf⟩:=split_of_setDistance e' hf
  exact h.branch x f id d0 hx hf
 branch_lt x y f id d f' id' d' hx hxy hf hf':=by
  obtain⟨d0,hf⟩:=split_of_setDistance e' hf
  obtain⟨d1,hf'⟩:=split_of_setDistance e' hf'
  exact h.branch_lt x y f id d0 f' id' d1 hx hxy hf hf'
 size_eq:=(size_patch _ _ _).trans h.size_eq
 entries_eq:=h.entries_eq
lemma distanceBack_eq {here:Nat}{there:Option Nat}
 (h:distanceBack here there=.ok d):d=Node.backDistance here there:=by
 cases there with
 | none=>
  rw[distanceBack]at h
  split at h<;>cases h
  rfl
 | some t=>
  rw[distanceBack]at h
  split at h<;>cases h
  rfl
lemma distanceOn_eq {there here:Nat}(h:distanceOn there here=.ok d):d=(here:Int)-there:=by
 rw[distanceOn]at h
 split at h<;>cases h
 rfl
lemma Grows.laid (h:Grows e e'){n:Node}{back:Bool}
 (ha:a+n.codeSize≤e.code.size)(hn:n.Laid e.code back a):
 n.Laid e'.code back a:=
 hn.congr n a fun x _ hx _=>h.fetch_eq x (hx.trans_le ha)
lemma laid_setDistance {n:Node}(d:Int)(hx:x<a∨a+n.codeSize≤x)(hn:n.Laid e.code back a):
 n.Laid (e.setDistance x d).code back a:=
 hn.congr n a fun y _ _ _=>fetch_setDistance_of_ne e d (by omega)
def Mode.sets (m:Mode):Bool:=if m.backwards then m.setBackward else m.setForward
lemma entries_note (e:Emission)(m:Mode)(anchor first:Nat):
 (e.note m anchor first).entries=e.entries.mapIdx fun k x=>x.refer m.backwards
  (if m.sets∧k=anchor then some (if m.backwards then e.address else first) else none):=by
 obtain⟨back,setForward,setBackward⟩:=m
 cases back
 ·cases setForward
  ·simp[note,sets,mapIdx_refer_none]
  have hn:(e.note ⟨false,true,setBackward⟩ anchor first).entries=
   e.entries.modify anchor fun x=>{x with forward:=some first}:=by simp[note]
  rw[hn,modify_eq_mapIdx]
  congr 1
  funext k x
  by_cases h:k=anchor<;>simp[h,sets,refer]
 cases setBackward
 ·simp[note,sets,mapIdx_refer_none]
 have hn:(e.note ⟨true,setForward,true⟩ anchor first).entries=
  e.entries.modify anchor fun x=>{x with backward:=some e.address}:=by simp[note]
 rw[hn,modify_eq_mapIdx]
 congr 1
 funext k x
 by_cases h:k=anchor<;>simp[h,sets,refer]
lemma note_code (e:Emission)(m:Mode)(anchor first:Nat):
 (e.note m anchor first).code=e.code∧(e.note m anchor first).splits=e.splits:=by
 rw[note]
 grind
lemma emitted_note {m:Mode}(h:Emitted m.backwards e e' n fun _=>none)(anchor first:Nat):
 Emitted m.backwards e (e'.note m anchor first) n fun k=>
  if m.sets∧k=anchor then some (if m.backwards then e'.address else first) else none:=by
 obtain⟨hc,hs⟩:=note_code e' m anchor first
 refine⟨⟨?_,?_,?_,?_,?_⟩,?_,?_⟩
 ·rw[hc]
  exact h.size_le
 ·rw[hc]
  exact h.fetch_eq
 ·rw[hs]
  exact h.splits_le
 ·rw[hc,hs]
  exact h.branch
 ·rw[hc]
  exact h.branch_lt
 ·rw[hc]
  exact h.size_eq
 ·have:=h.entries_eq
  rw[mapIdx_refer_none]at this
  rw[entries_note,this]
lemma emit_leaf (m:Mode)(anchor:Nat){n:Node}(hn:n.IsLeaf)(e:Emission):
 emit m anchor n e=.ok (emitLeaf m anchor n e):=by
 cases n<;>first | rfl | exact hn.elim
lemma leaf?_ne_split {n:Node}{i:Inst}(h:leaf? n=some i)(f:Bool)(id:Nat)(d:Int):i≠.split f id d:=by
 cases n<;>cases h<;>exact nofun
lemma anchors_ne_one {n:Node}(hn:n.IsLeaf)(h:leaf? n=none):n.anchors≠1:=by
 cases n<;>simp_all [Node.IsLeaf,leaf?,Node.anchors]

/-- The spec of emission: what becomes of the code, what is laid, and the first address. -/
def EmitSpec (m:Mode)(anchor:Nat)(n:Node)(e:Emission)(first:Option Nat)(e':Emission):Prop:=
 Emitted m.backwards e e' n.codeSize (fun k=>if m.sets then n.seat m.backwards anchor e.code.size k else none)∧
  n.Laid e'.code m.backwards e.code.size∧first=n.first m.backwards e.code.size
lemma emitSpec_leaf (m:Mode)(anchor:Nat){n:Node}(hn:n.IsLeaf)(e:Emission):
 EmitSpec m anchor n e (emitLeaf m anchor n e).1 (emitLeaf m anchor n e).2:=by
 rw[EmitSpec,hn.first_eq,hn.laid_iff,hn.codeSize_eq]
 simp only[hn.seat_eq,emitLeaf]
 cases hl:leaf? n with
 | none=>
  simp only[anchors_ne_one hn hl,false_and,if_false,ite_self]
  exact⟨Emitted.refl _ e,nofun,rfl⟩
 | some i=>
  have hp:=emitted_push m.backwards e i (leaf?_ne_split hl)
  have hsi:n.codeSize=i.size:=by rw[hn.codeSize_eq,hl];rfl
  have hf:∀j,some i=some j→(e.push i).code.fetch e.code.size=j:=by
   intro j hj
   cases hj
   exact fetch_push e i
  by_cases ha:n.anchors=1
  ·simp only[ha,if_true]
   have hno:=emitted_note hp anchor e.address
   rw[(note_code _ _ _ _).1]
   refine⟨hno.congr rfl fun k=>?_,hf,rfl⟩
   by_cases hs:m.sets<;>by_cases hk:k=anchor <;>
    simp[hs,address,hp.size_eq,hsi]
  ·simp only[ha,if_false,false_and,ite_self]
   exact⟨hp,hf,rfl⟩
section
variable {m:Mode}{anchor:Nat}{g:Bool}{body:Node}
 (ih:∀e first e',emit m anchor body e=.ok (first,e')→EmitSpec m anchor body e first e')
 {e e':Emission}{first:Option Nat}
include ih
lemma emitSpec_plus (h:emit m anchor (.plus g body) e=.ok (first,e')):
 EmitSpec m anchor (.plus g body) e first e':=by
 simp only[emit,address]at h
 obtain⟨⟨f,e1⟩,h1,h⟩:=bind_eq_ok.1 h
 obtain⟨back,h2,h⟩:=bind_eq_ok.1 h
 obtain⟨e2,h3,h⟩:=bind_eq_ok.1 h
 cases h
 obtain⟨he,hl,rfl⟩:=ih e _ e1 h1
 obtain⟨hp,hf⟩:=emitted_pushSplit m.backwards h3
 refine⟨(he.trans hp).congr rfl fun k=>rfl,⟨?_,e1.splits,?_⟩,rfl⟩
 ·exact hp.laid he.size_eq.ge hl
 ·rw[←he.size_eq,hf,distanceBack_eq h2]
lemma emitSpec_star (h:emit m anchor (.star g body) e=.ok (first,e')):
 EmitSpec m anchor (.star g body) e first e':=by
 simp only[emit,address]at h
 obtain⟨e1,h1,h⟩:=bind_eq_ok.1 h
 obtain⟨⟨f,e2⟩,h2,h⟩:=bind_eq_ok.1 h
 dsimp only at h
 obtain⟨back,h3,h⟩:=bind_eq_ok.1 h
 obtain⟨on,h4,h⟩:=bind_eq_ok.1 h
 cases h
 obtain⟨hp,hf⟩:=emitted_pushSplit m.backwards h1
 obtain⟨he,hl,-⟩:=ih e1 f e2 h2
 have hj:=emitted_push m.backwards e2 (.jump back) nofun
 have ha:=(hp.trans he).trans hj
 have hsi1:=hp.size_eq
 have hsi2:=he.size_eq
 have hsi3:=ha.size_eq
 have hb:=distanceBack_eq h3
 have hon:=distanceOn_eq h4
 simp only[Inst.size,Node.backDistance]at hsi3 hb hon
 refine⟨(ha.setDistance on le_rfl).congr ?_ fun k=>?_,⟨⟨e.splits,?_⟩,?_,?_⟩,rfl⟩
 ·rw[Node.codeSize,Inst.size]
  omega
 ·rw[hsi1]
  simp[Node.seat]
 ·rw[fetch_setDistance _ _ (by omega),hj.fetch_eq _ (by omega),he.fetch_eq _ (by omega),hf,Inst.aim]
  congr 1
  omega
 ·rw[←hsi1]
  exact laid_setDistance on (by omega) (hj.laid hsi2.ge hl)
 ·have hat:e.code.size+4+body.codeSize=e2.code.size:=by omega
  rw[hat,fetch_setDistance_of_ne _ _ (by omega),fetch_push]
  congr 1
  omega
end
lemma emitSpec_alt {m:Mode}{anchor:Nat}{l r:Node}
 (ihl:∀e first e',emit m anchor l e=.ok (first,e')→EmitSpec m anchor l e first e')
 (ihr:∀e first e',emit m (anchor+l.anchors) r e=.ok (first,e')→EmitSpec m (anchor+l.anchors) r e first e')
 {e e':Emission}{first:Option Nat}(h:emit m anchor (.alt l r) e=.ok (first,e')):
 EmitSpec m anchor (.alt l r) e first e':=by
 simp only[emit,address]at h
 obtain⟨e1,h1,h⟩:=bind_eq_ok.1 h
 obtain⟨⟨f,e2⟩,h2,h⟩:=bind_eq_ok.1 h
 dsimp only at h
 obtain⟨on,h3,h⟩:=bind_eq_ok.1 h
 obtain⟨⟨f',e4⟩,h4,h⟩:=bind_eq_ok.1 h
 dsimp only at h
 obtain⟨on',h5,h⟩:=bind_eq_ok.1 h
 cases h
 obtain⟨hp,hf⟩:=emitted_pushSplit m.backwards h1
 obtain⟨hl,hla,-⟩:=ihl e1 f e2 h2
 have hj:=emitted_push m.backwards e2 (.jump 0) nofun
 have hsi1:=hp.size_eq
 have hsi2:=hl.size_eq
 have hsi3:=hj.size_eq
 have hh:=((hp.trans hl).trans hj).setDistance on le_rfl
 obtain⟨hr,hld,-⟩:=ihr _ f' e4 h4
 have ha:=hh.trans hr
 have hs:=ha.size_eq
 have hsi:((e2.push (.jump 0)).setDistance e.code.size on).code.size=
  (e2.push (.jump 0)).code.size:=size_patch _ _ _
 have hon:=distanceOn_eq h3
 have hon':=distanceOn_eq h5
 simp only[Inst.size]at hs hsi3 hon hon'
 have hat:e.code.size+4+l.codeSize=e2.code.size:=by omega
 have hat':e.code.size+4+l.codeSize+3=((e2.push (.jump 0)).setDistance e.code.size on).code.size:=by omega
 refine⟨(ha.setDistance on' (by omega)).congr ?_ fun k=>?_,⟨⟨e.splits,?_⟩,?_,?_,?_⟩,rfl⟩
 ·rw[Node.codeSize,Inst.size]
  omega
 ·rw[Node.seat,hat',←hsi1]
  split<;>simp
 ·rw[fetch_setDistance_of_ne _ _ (by omega),hr.fetch_eq _ (by omega),
   fetch_setDistance _ _ (by omega),hj.fetch_eq _ (by omega),hl.fetch_eq _ (by omega),hf,Inst.aim]
  congr 1
  omega
 ·rw[←hsi1]
  refine laid_setDistance on' (by omega) (hr.laid (by omega) ?_)
  exact laid_setDistance on (by omega) (hj.laid (by omega) hla)
 ·rw[hat,fetch_setDistance _ _ (by omega),hr.fetch_eq _ (by omega),
   fetch_setDistance_of_ne _ _ (by omega),fetch_push,Inst.aim]
  congr 1
  omega
 ·rw[hat']
  exact laid_setDistance on' (by omega) hld
lemma emitBranch_spec (back:Bool){lo hi:Nat}{g:Bool}{e e1:Emission}(h:emitBranch lo hi g e=.ok e1):
 Emitted back e e1 (if hi>lo then 4 else 0) (fun _=>none)∧
 (hi>lo→e1.code.fetch e.code.size=.split g e.splits 0):=by
 rw[emitBranch]at h
 split at h
 ·rename_i hhi
  simp only[hhi,true_implies]
  exact emitted_pushSplit back h
 ·rename_i hhi
  cases h
  simp only[hhi]
  exact⟨Emitted.refl _ e,elim⟩
lemma aimBranch_spec {lo hi:Nat}{e1:Emission}(h:aimBranch lo hi e a=.ok e1):
 (∀x,(hi>lo→x≠a)→e1.code.fetch x=e.code.fetch x)∧
 (hi>lo→a<e.code.size→e1.code.fetch a=(e.code.fetch a).aim (e.code.size-a))∧
 ∀back e0 n s,Emitted back e0 e n s→e0.code.size≤a→Emitted back e0 e1 n s:=by
 rw[aimBranch]at h
 split at h
 ·rename_i hhi
  obtain⟨on,hon,h⟩:=bind_eq_ok.1 h
  cases h
  refine⟨fun x hx=>fetch_setDistance_of_ne e on (hx hhi),fun _ ha=>?_,fun _ _ _ _ he ha=>he.setDistance on ha⟩
  rw[fetch_setDistance e on ha,distanceOn_eq hon]
  rfl
 ·rename_i hhi
  cases h
  exact⟨fun _ _=>rfl,fun h=>absurd h hhi,fun _ _ _ _ he _=>he⟩
section
variable {m:Mode}{anchor lo hi:Nat}{g:Bool}{body:Node}
 (ih:∀m e first e',emit m anchor body e=.ok (first,e')→EmitSpec m anchor body e first e')
include ih
lemma emitProlog_spec {e e1:Emission}{f:Option Nat}(h:emitProlog (emit · anchor body) m lo e=.ok (f,e1)):
 Emitted m.backwards e e1 (if lo>0 then body.codeSize else 0) (fun k=>
  if m.sets then if lo>0 then body.seat m.backwards anchor e.code.size k else none else none)∧
 (lo>0→body.Laid e1.code m.backwards e.code.size∧f=body.first m.backwards e.code.size):=by
 rw[emitProlog]at h
 split at h
 ·rename_i hlo
  obtain⟨he,hl,hf⟩:=ih m e f e1 h
  grind
 ·rename_i hlo
  cases h
  simp only[hlo,if_false,ite_self]
  exact⟨Emitted.refl _ e,elim⟩
lemma emitLoop_spec {e e2:Emission}(h:emitLoop (emit · anchor body) m lo hi g e=.ok e2):
 Emitted m.backwards e e2 (if hasLoop lo hi then body.codeSize+18 else 0) (fun _=>none)∧
 (hasLoop lo hi→e2.code.fetch e.code.size=
   .repeatStart g (loopLow lo hi) (loopHigh lo hi) (body.codeSize+18)∧
  body.Laid e2.code m.backwards (e.code.size+9)∧
  e2.code.fetch (e.code.size+9+body.codeSize)=
   .repeatEnd g (loopLow lo hi) (loopHigh lo hi) (-(body.codeSize:Int))):=by
 rw[emitLoop]at h
 split at h
 ·rename_i hl
  have hst:=emitted_push m.backwards e (.repeatStart g (loopLow lo hi) (loopHigh lo hi) 0) nofun
  have hsi1:=hst.size_eq
  simp only[Inst.size]at hsi1
  simp only[address,hsi1]at h
  obtain⟨⟨f,e1⟩,h1,h⟩:=bind_eq_ok.1 h
  split at h
  ·cases h
  cases h
  obtain⟨he,hla,-⟩:=ih _ _ _ _ h1
  have hen:=emitted_push m.backwards e1 (.repeatEnd g (loopLow lo hi) (loopHigh lo hi)
   ((e.code.size+9:Nat)-e1.code.size)) nofun
  have ha:=(hst.trans he).trans hen
  have hsi2:=he.size_eq
  have hsi3:=hen.size_eq
  simp only[Inst.size]at hsi3
  have hla':body.Laid e1.code m.backwards (e.code.size+9):=by
   rw[←hsi1]
   exact hla
  simp only[hl,if_true,true_implies]
  refine⟨(ha.setDistance _ le_rfl).congr ?_ fun k=>?_,?_,?_,?_⟩
  ·simp only[Inst.size]
   omega
  ·simp[sets]
  ·rw[fetch_setDistance _ _ (by omega),hen.fetch_eq _ (by omega),he.fetch_eq _ (by omega),fetch_push,Inst.aim]
   congr 1
   omega
  ·exact laid_setDistance _ (by omega) (hen.laid (by omega) hla')
  ·have hat:e.code.size+9+body.codeSize=e1.code.size:=by omega
   rw[hat,fetch_setDistance_of_ne _ _ (by omega),fetch_push]
   congr 1
   omega
 ·rename_i hl
  cases h
  simp only[hl]
  exact⟨Emitted.refl _ e,nofun⟩
lemma emitEpilog_spec {e e1:Emission}{f:Option Nat}
 (h:emitEpilog (emit · anchor body) m lo hi e=.ok (f,e1)):
 Emitted m.backwards e e1 (if hasEpilog lo hi then body.codeSize else 0) (fun k=>
  if m.sets then if hasEpilog lo hi&&(m.backwards||lo==0) then
   body.seat m.backwards anchor e.code.size k else none else none)∧
 (hasEpilog lo hi→body.Laid e1.code m.backwards e.code.size)∧
 f=if hasEpilog lo hi then body.first m.backwards e.code.size else none:=by
 rw[emitEpilog]at h
 split at h
 ·rename_i hep
  obtain⟨he,hl,hf⟩:=ih _ e f e1 h
  have hm:(if lo>0 then {m with setForward:=false} else m).backwards=m.backwards:=by split<;>rfl
  rw[hm]at he hl hf
  simp only[hep]
  refine⟨he.congr rfl fun k=>?_,fun _=>hl,hf⟩
  obtain⟨back,setForward,setBackward⟩:=m
  by_cases hlo:lo=0
  ·simp[hlo]
  ·have hp:lo>0:=Nat.pos_of_ne_zero hlo
   cases back<;>simp[hlo,hp,sets]
 ·rename_i hep
  cases h
  simp only[hep,Bool.false_and,if_false,ite_self,Bool.false_eq_true]
  exact⟨Emitted.refl _ e,nofun,trivial⟩
lemma emitSpec_range {e e':Emission}{first:Option Nat}
 (h:emit m anchor (.range lo hi g body) e=.ok (first,e')):
 EmitSpec m anchor (.range lo hi g body) e first e':=by
 rw[emit,emitRange]at h
 simp only[address]at h
 obtain⟨⟨f1,e1⟩,h1,h⟩:=bind_eq_ok.1 h
 obtain⟨e2,h2,h⟩:=bind_eq_ok.1 h
 obtain⟨e3,h3,h⟩:=bind_eq_ok.1 h
 obtain⟨⟨f4,e4⟩,h4,h⟩:=bind_eq_ok.1 h
 obtain⟨e5,h5,h⟩:=bind_eq_ok.1 h
 dsimp only at h h2 h5
 cases h
 obtain⟨hp,hla1⟩:=emitProlog_spec ih h1
 obtain⟨hl,hla2⟩:=emitLoop_spec ih h2
 obtain⟨hbr,hf⟩:=emitBranch_spec m.backwards h3
 obtain⟨hepi,hla4,hfs⟩:=emitEpilog_spec ih h4
 have hloopAt:e1.code.size=body.loopAt lo e.code.size:=hp.size_eq
 have hbranchAt:e2.code.size=body.branchAt lo hi e.code.size:=by
  rw[hl.size_eq,hloopAt]
  rfl
 have hepilogAt:e3.code.size=body.epilogAt lo hi e.code.size:=by
  rw[hbr.size_eq,hbranchAt]
  rfl
 obtain⟨hai,ha,hk⟩:=aimBranch_spec h5
 have hal:=hk _ _ _ _ (((hp.trans hl).trans hbr).trans hepi)
  (hp.size_le.trans hl.size_le)
 have hfe2:∀x<e2.code.size,e'.code.fetch x=e2.code.fetch x:=by
  intro x hx
  rw[hai x fun _=>hx.ne,hepi.fetch_eq x (hx.trans_le hbr.size_le),hbr.fetch_eq x hx]
 have hfe1:∀x<e1.code.size,e'.code.fetch x=e1.code.fetch x:=by
  intro x hx
  rw[hfe2 x (hx.trans_le hl.size_le),hl.fetch_eq x hx]
 refine⟨hal.congr ?_ fun k=>?_,⟨fun hlo=>?_,fun hlp=>?_,fun hhi=>?_,fun hep=>?_⟩,?_⟩
 ·rw[Node.codeSize]
 ·rw[Node.seat,←hepilogAt]
  cases m.sets<;>simp
 ·refine (hla1 hlo).1.congr body _ fun x _ hx _=>hfe1 x ?_
  have:=hp.size_eq
  rw[if_pos hlo]at this
  omega
 ·obtain⟨hs,hb,he⟩:=hla2 hlp
  have hsi:=hl.size_eq
  rw[if_pos hlp]at hsi
  rw[←hloopAt]
  refine⟨?_,hb.congr body _ fun x _ hx _=>hfe2 x (by omega),?_⟩
  ·rw[hfe2 _ (by omega),hs]
  ·rw[hfe2 _ (by omega),he]
 ·have hsi:=hbr.size_eq
  have hsi4:=hepi.size_eq
  rw[if_pos hhi]at hsi
  have hep:hasEpilog lo hi:=by simp[hasEpilog,hhi]
  rw[if_pos hep]at hsi4
  refine⟨e2.splits,?_⟩
  rw[←hbranchAt,ha hhi (by omega),hepi.fetch_eq _ (by omega),hf hhi,Inst.aim]
  congr 1
  omega
 ·rw[←hepilogAt]
  refine (hla4 hep).congr body _ fun x hx _ _=>hai x fun hhi=>?_
  have hsi:=hbr.size_eq
  rw[if_pos hhi]at hsi
  omega
 rw[Node.first,←hepilogAt,hfs]
 split
 ·rename_i hlo
  exact (hla1 hlo).2
 ·rename_i hlo
  have hsi:=hp.size_eq
  rw[if_neg hlo]at hsi
  rw[hsi,add_zero]
end
lemma emit_spec (n:Node):∀m anchor e first e',emit m anchor n e=.ok (first,e')→
 EmitSpec m anchor n e first e':=by
 induction n using Node.induction (Q:=fun ns=>∀m anchor e first e',emitList m anchor ns e=.ok (first,e')→
   Emitted m.backwards e e' (Node.codeSizeList ns)
    (fun k=>if m.sets then Node.seatList m.backwards ns anchor e.code.size k else none)∧
   Node.LaidList e'.code m.backwards ns e.code.size∧
   first=Node.firstList m.backwards ns e.code.size) with
 | leaf n hn=>
  intro m anchor e first e' h
  rw[emit_leaf m anchor hn]at h
  have:=emitSpec_leaf m anchor hn e
  rw[Except.ok.inj h]at this
  exact this
 | cat _ ih=>exact ih
 | alt l r ihl ihr=>exact fun m anchor _ _ _=>emitSpec_alt (ihl m anchor) (ihr m _)
 | star g e ih=>exact fun m anchor _ _ _=>emitSpec_star (ih m anchor)
 | plus g e ih=>exact fun m anchor _ _ _=>emitSpec_plus (ih m anchor)
 | range _ _ g e ih=>exact fun m anchor _ _ _=>emitSpec_range fun m=>ih m anchor
 | nil m _ e _ _ h=>
  cases h
  simp only[Node.seatList,ite_self]
  exact⟨Emitted.refl _ e,trivial,rfl⟩
 | cons n ns ihn ihns m _ e _ _ h=>
  rw[emitList]at h
  split at h
  ·rename_i hb
   obtain⟨⟨f1,e1⟩,h1,h⟩:=bind_eq_ok.1 h
   obtain⟨⟨f2,e2⟩,h2,h⟩:=bind_eq_ok.1 h
   cases h
   obtain⟨hem1,hla1,hfi1⟩:=ihns _ _ _ _ _ h1
   obtain⟨hem2,hla2,hfi2⟩:=ihn _ _ _ _ _ h2
   have hs:=hem1.size_eq
   rw[hb]at hem1 hla1 hfi1 hem2 hla2 hfi2⊢
   rw[hs]at hla2 hfi2 hem2
   refine⟨(hem1.trans hem2).congr (add_comm _ _) fun k=>?_,?_,?_⟩
   ·rw[Node.seatList]
    cases m.sets<;>simp
   ·exact⟨hem2.laid (n:=.cat ns) hs.ge hla1,hla2⟩
   rw[Node.firstList]
   split
   ·rename_i hns
    have hni:ns=[]:=List.isEmpty_iff.1 hns
    rw[hfi2,hni]
    rfl
   ·exact hfi1
  rename_i hb
  obtain⟨⟨f1,e1⟩,h1,h⟩:=bind_eq_ok.1 h
  obtain⟨⟨f2,e2⟩,h2,h⟩:=bind_eq_ok.1 h
  cases h
  obtain⟨hem1,hla1,hfi1⟩:=ihn _ _ _ _ _ h1
  obtain⟨hem2,hla2,-⟩:=ihns _ _ _ _ _ h2
  have hs:=hem1.size_eq
  rw[hs]at hla2 hem2
  refine⟨(hem1.trans hem2).congr rfl fun k=>?_,?_,?_⟩
  ·rw[Node.seatList,if_neg hb]
   cases m.sets<;>simp
  ·rw[Node.LaidList,if_neg hb]
   exact⟨hem2.laid hs.ge hla1,hla2⟩
  ·rw[Node.firstList,if_neg hb]
   exact hfi1
end Emission
/-- What the code of a pattern looks like in a code section that may have grown since. -/
structure Pattern.Stands (p:Pattern)(back:Bool)(a:Nat)(c:Code):Prop where
 laid:p.root.Laid c back a
 accept:c.fetch (a+p.root.codeSize)=.accept
 branch:∀x y f id d f' d',a≤x→x<a+p.root.codeSize→a≤y→
  y<a+p.root.codeSize→c.fetch x=.split f id d→c.fetch y=.split f' id d'→x=y
lemma Pattern.Stands.congr {p:Pattern}{back:Bool}{a:Nat}{c c':Code}(hp:p.Stands back a c)
 (h:∀x,a≤x→x<a+p.root.codeSize+1→c'.fetch x=c.fetch x):
 p.Stands back a c' where
 laid:=hp.laid.congr _ _ fun x hx hx' _=>h x hx (by omega)
 accept:=by rw[h _ (by omega) (by omega),hp.accept]
 branch x y f id d f' d' hx hx' hy hy' hfx hfy:=by
  rw[h x hx (by omega)]at hfx
  rw[h y hy (by omega)]at hfy
  exact hp.branch x y f id d f' d' hx hx' hy hy' hfx hfy
lemma Pattern.emit_stands {p:Pattern}{back:Bool}{c c':Code}{en es:Array Entry}
 (h:p.emit back c en=.ok (c',es)):
 p.Stands back c.size c'∧c'.size=c.size+p.root.codeSize+1∧
 (∀x<c.size,c'.fetch x=c.fetch x)∧
 es=en.mapIdx fun k x=>x.refer back (p.root.seat back 0 c.size k):=by
 obtain⟨⟨f,e⟩,h1,h⟩:=bind_eq_ok.1 h
 cases h
 obtain⟨he,hl,-⟩:=Emission.emit_spec _ _ _ _ _ _ h1
 have hs:=he.size_eq
 have hf:∀x<c.size+p.root.codeSize,(e.code.push .accept).fetch x=e.code.fetch x:=
  fun x hx=>fetch_push_of_lt _ _ _ (hs.symm▸hx)
 refine⟨⟨?_,?_,?_⟩,?_,?_,?_⟩
 ·exact hl.congr _ _ fun x _ hx _=>hf x hx
 ·rw[←hs,fetch_push_size]
 ·intro x y f id d f' d' hx hx' hy hy' hfx hfy
  rw[hf x hx']at hfx
  rw[hf y hy']at hfy
  rcases Nat.lt_trichotomy x y with hlt|heq|hlt
  ·exact absurd (he.branch_lt x y f id d f' id d' hx hlt hfx hfy) (lt_irrefl _)
  ·exact heq
  ·exact absurd (he.branch_lt y x f' id d' f id d hy hlt hfy hfx) (lt_irrefl _)
 ·rw[size_push,hs]
  rfl
 ·intro x hx
  rw[hf x (by omega),he.fetch_eq x hx]
 ·rw[he.entries_eq]
  cases back<;>rfl
end PatternScan.Regex