import PatternScan.Proofs.Except
import PatternScan.Proofs.Regex.Walk
/-! Between two inputs a thread runs on until it waits, and no branch is taken twice on the way. -/
open List
namespace PatternScan.Regex
open Code
open Relation (ReflTransGen)
variable {id:Nat}{g:Bool}{u' root:Thread}{O:List Thread}
namespace Thread
variable {c:Code}{t:Thread}{V:List Nat}
def Onward (c:Code):Thread→Thread→Prop:=ReflTransGen fun t u=>u∈t.ways c
def Becomes (c:Code)(t w:Thread):Prop:=∃u,Onward c t u∧u.waits c=some w
def Solo (c:Code)(t:Thread):Prop:=
 ∀u u',Onward c t u→Onward c t u'→(c.branch? u.address).isSome→c.branch? u.address=c.branch? u'.address→u=u'
lemma waits_of_branch (h:c.branch? t.address=some id):t.waits c=none:=by
 obtain⟨f,d,hf⟩:=branch?_eq_some.1 h
 rw[waits,hf]
variable {V':List Nat}{X:Expansion}{fuel:Nat}{pool:Pool}{u w:Thread}
lemma Becomes.of_waits (h:t.waits c=some w):Becomes c t w:=
 ⟨t,.refl,h⟩
lemma Becomes.of_ways (hu:u∈t.ways c)(h:Becomes c u w):Becomes c t w:=by
 obtain⟨x,hx,hw⟩:=h
 exact⟨x,.head hu hx,hw⟩

/-- An expansion is stopped by a branch already taken, goes on one way or two ways, or comes to where the thread
waits. What follows a gap that still has a choice is expanded by itself. -/
inductive Expands (c:Code):Thread→List Nat→List Thread→List Nat→Prop
 | taken {t:Thread}{V:List Nat}{id:Nat}:c.branch? t.address=some id→id∈V→
  Expands c t V [] V
 | branch {t u u':Thread}{V V1 V2:List Nat}{O O':List Thread}{id:Nat}:
  c.branch? t.address=some id→id∉V→(∀x,x∈t.ways c↔x=u∨x=u')→
  Expands c u (id::V) O V1→Expands c u' V1 O' V2→Expands c t V (O++O') V2
 | two {t u u':Thread}{V V1 V2:List Nat}{O O':List Thread}:
  c.branch? t.address=none→t.waits c=none→(∀x,x∈t.ways c↔x=u∨x=u')→
  Expands c u V O V1→Expands c u' V1 O' V2→Expands c t V (O++O') V2
 | one {t u:Thread}{V V':List Nat}{O:List Thread}:
  c.branch? t.address=none→t.waits c=none→t.ways c=[u]→Expands c u V O V'→
  Expands c t V O V'
 | waits {t w:Thread}{V:List Nat}:t.waits c=some w→t.ways c=[]→
  Expands c t V [w] V
 | gap {t u w:Thread}{V V':List Nat}{O O':List Thread}:
  c.branch? t.address=none→t.waits c=some w→t.ways c=[u]→Expands c u [] O V'→
  O'.Perm (w::O)→Expands c t V O' V
def fork (c:Code)(fuel:Nat)(u u':Thread)(V:List Nat)(pool:Pool):Except Fault Expansion:=do
 let pool ← take pool
 let a ← expand c fuel u V pool
 let b ← expand c fuel u' a.branches a.pool
 pure ⟨a.threads++b.threads,b.branches,b.pool,a.kept,.take::(a.log++b.log)⟩
def linger (c:Code)(fuel:Nat)(g:Bool)(w u:Thread)(V:List Nat)(pool:Pool):Except Fault Expansion:=do
 let pool ← take pool
 let b ← expand c fuel u [] pool
 pure ⟨if g then w::b.threads else b.threads++[w],V,b.pool,g||b.kept,.take::if g then .wait::b.log else b.log++[.wait]⟩

/-- What one step of an expansion does, with any number of steps and any pool. -/
inductive Turn (c:Code)(t:Thread)(V:List Nat):Prop
 | taken {id:Nat}:c.branch? t.address=some id→id∈V→
  (∀fuel pool,expand c (fuel+1) t V pool=.ok ⟨[],V,pool.release 1,false,[.drop]⟩)→Turn c t V
 | branch {id:Nat}{u u':Thread}:c.branch? t.address=some id→id∉V→
  (∀x,x∈t.ways c↔x=u∨x=u')→
  (∀fuel pool,expand c (fuel+1) t V pool=fork c fuel u u' (id::V) pool)→Turn c t V
 | two {u u':Thread}:c.branch? t.address=none→t.waits c=none→
  (∀x,x∈t.ways c↔x=u∨x=u')→
  (∀fuel pool,expand c (fuel+1) t V pool=fork c fuel u u' V pool)→Turn c t V
 | one {u:Thread}:c.branch? t.address=none→t.waits c=none→t.ways c=[u]→
  (∀fuel pool,expand c (fuel+1) t V pool=expand c fuel u V pool)→Turn c t V
 | waits {w:Thread}:t.waits c=some w→t.ways c=[]→
  (∀fuel pool,expand c (fuel+1) t V pool=.ok ⟨[w],V,pool,true,[.wait]⟩)→Turn c t V
 | gap {u w:Thread}{g:Bool}:c.branch? t.address=none→t.waits c=some w→
  t.ways c=[u]→(∀fuel pool,expand c (fuel+1) t V pool=linger c fuel g w u V pool)→
  Turn c t V
lemma expand_fork (h:t.course c V=.fork u u' V'):∀fuel pool,expand c (fuel+1) t V pool=fork c fuel u u' V' pool:=by
 intro fuel pool
 rw[expand,h]
 rfl
lemma expand_go (h:t.course c V=.go u):∀fuel pool,expand c (fuel+1) t V pool=expand c fuel u V pool:=by
 intro fuel pool
 rw[expand,h]
section
variable {d:Int}{hi lo:Nat}
lemma Turn.of_fork (hb:c.branch? t.address=none)(hw:t.waits c=none)(hwa:∀x,x∈t.ways c↔x=u∨x=u')
 (h:t.course c V=.fork (if g then u else u') (if g then u' else u) V):Turn c t V:=by
 refine .two hb hw ?_ (expand_fork h)
 intro x
 rw[hwa]
 cases g<;>simp[or_comm]
lemma turn_split (hf:c.fetch t.address=.split g id d):Turn c t V:=by
 have hid:c.branch? t.address=some id:=by rw[branch?,hf]
 have heq:t.course c V=if V.contains id then .drop
  else (fun u u'=>.fork (if g then u else u') (if g then u' else u) (id::V))
   {t with address:=t.address+4} {t with address:=c.target t.address d}:=by
  rw[course,hf]
  cases g<;>rfl
 by_cases hm:id∈V
 ·refine .taken hid hm fun fuel pool=>?_
  rw[expand,heq,if_pos (by simpa using hm)]
 ·refine .branch hid hm ?_ (expand_fork (heq.trans (if_neg (by simpa using hm))))
  rw[ways,hf]
  cases g<;>simp[or_comm,Inst.size]
lemma turn_repeatStart (hf:c.fetch t.address=.repeatStart g lo hi d):Turn c t V:=by
 have hb:c.branch? t.address=none:=by rw[branch?,hf]
 have hw:t.waits c=none:=by rw[waits,hf]
 have heq:t.course c V=(fun u u'=>if lo=0 then
   .fork (if g then u else u') (if g then u' else u) V
   else .go u)
   {t with address:=t.address+9,counters:=0::t.counters}
   {t with address:=c.target t.address d}:=by
  rw[course,hf]
  cases g<;>rfl
 by_cases hlo:lo=0
 ·refine .of_fork hb hw ?_ (heq.trans (if_pos hlo))
  rw[ways,hf]
  simp[hlo,Inst.size]
 ·refine .one hb hw ?_ (expand_go (heq.trans (if_neg hlo)))
  rw[ways,hf]
  simp[hlo,Inst.size]
lemma turn_repeatEnd (hf:c.fetch t.address=.repeatEnd g lo hi d):Turn c t V:=by
 have hb:c.branch? t.address=none:=by rw[branch?,hf]
 have hw:t.waits c=none:=by rw[waits,hf]
 obtain⟨n,hn⟩:∃n,n=t.counters.headD 0+1:=⟨_,rfl⟩
 obtain⟨again,ha⟩:∃u:Thread,u=
  {t with address:=c.target t.address d,counters:=n::t.counters.tail}:=⟨_,rfl⟩
 obtain⟨past,hp⟩:∃u:Thread,u={t with address:=t.address+9,counters:=t.counters.tail}:=⟨_,rfl⟩
 have hwa:t.ways c=(if n<lo∨n<hi then [again] else []) ++
  if n<lo then [] else [past]:=by
  rw[ways,hf,ha,hp,hn]
  rfl
 have heq:t.course c V=if n<lo then .go again
  else if n<hi then .fork (if g then again else past) (if g then past else again) V
  else .go past:=by
  rw[course,hf,ha,hp,hn]
  cases t with
  | mk _ counters _=>
   cases counters with
   | nil=>cases g<;>rfl
   | cons m _=>cases g<;>rfl
 by_cases hlo:n<lo
 ·refine .one hb hw ?_ (expand_go (heq.trans (if_pos hlo)))
  simp[hwa,hlo]
 by_cases hhi:n<hi
 ·refine .of_fork hb hw ?_ (heq.trans ((if_neg hlo).trans (if_pos hhi)))
  simp[hwa,hlo,hhi]
 ·refine .one hb hw ?_ (expand_go (heq.trans ((if_neg hlo).trans (if_neg hhi))))
  simp[hwa,hlo,hhi]
lemma turn_gap (hf:c.fetch t.address=.gap lo hi g):Turn c t V:=by
 have hb:c.branch? t.address=none:=by rw[branch?,hf]
 have hwa:¬t.count<lo→t.ways c=[{t with address:=t.address+5,taken:=none}]:=by
  intro hlo
  rw[ways,hf]
  simp[hlo,Inst.size]
 have heq:t.course c V=if t.count<lo then .wait {t with taken:=some (t.count+1)}
  else if t.count<hi then .linger g {t with taken:=some (t.count+1)}
   {t with address:=t.address+5,taken:=none}
  else .go {t with address:=t.address+5,taken:=none}:=by
  rw[course,hf]
  rfl
 by_cases hlo:t.count<lo
 ·refine .waits ((waits_gap hf).2 ⟨.inl hlo,rfl⟩) ?_ fun fuel pool=>by rw[expand,heq,if_pos hlo]
  rw[ways,hf]
  simp[hlo]
 by_cases hhi:t.count<hi
 ·exact .gap hb ((waits_gap hf).2 ⟨.inr hhi,rfl⟩) (hwa hlo) fun fuel pool=>by
   rw[expand,heq,if_neg hlo,if_pos hhi]
   rfl
 ·refine .one hb ?_ (hwa hlo) (expand_go (heq.trans ((if_neg hlo).trans (if_neg hhi))))
  rw[Option.eq_none_iff_forall_ne_some]
  intro w hw
  obtain⟨h',-⟩:=(waits_gap hf).1 hw
  omega
variable (c t V) in
lemma turn:Turn c t V:=by
 cases hf:c.fetch t.address with
 | split g _ d=>exact turn_split hf
 | repeatStart g _ _ d=>exact turn_repeatStart hf
 | repeatEnd g _ _ d=>exact turn_repeatEnd hf
 | gap _ _ g=>exact turn_gap hf
 | jump d=>
  refine .one (by rw[branch?,hf]) (by rw[waits,hf]) (by rw[ways,hf]) (expand_go ?_)
  rw[course,hf]
 | _=>
  refine .waits (by rw[waits,hf]) (by rw[ways,hf]) fun fuel pool=>?_
  rw[expand,course,hf]
end
lemma fork_eq_ok (h:fork c fuel u u' V pool=.ok X):∃p a b,take pool=.ok p∧expand c fuel u V p=.ok a∧
  expand c fuel u' a.branches a.pool=.ok b∧X=⟨a.threads++b.threads,b.branches,b.pool,a.kept,.take::(a.log++b.log)⟩:=by
 obtain⟨p,hp,h⟩:=bind_eq_ok.1 h
 obtain⟨a,ha,h⟩:=bind_eq_ok.1 h
 obtain⟨b,hb,h⟩:=bind_eq_ok.1 h
 cases h
 exact⟨p,a,b,hp,ha,hb,rfl⟩
lemma linger_eq_ok (h:linger c fuel g w u V pool=.ok X):
 ∃p b,take pool=.ok p∧expand c fuel u [] p=.ok b∧X.branches=V∧X.pool=b.pool∧
  X.threads.Perm (w::b.threads):=by
 obtain⟨p,hp,h⟩:=bind_eq_ok.1 h
 obtain⟨b,hb,h⟩:=bind_eq_ok.1 h
 cases h
 grind
lemma expand_expands (fuel:Nat):∀(t:Thread)(V:List Nat)(pool:Pool)
 (X:Expansion),expand c fuel t V pool=.ok X→Expands c t V X.threads X.branches:=by
 induction fuel with
 | zero=>intro t V pool X h;cases h
 | succ _ ih=>
  intro t V pool X h
  cases turn c t V with
  | taken hid hm heq=>
   rw[heq]at h
   cases h
   exact .taken hid hm
  | branch hid hm hwa heq=>
   rw[heq]at h
   obtain⟨p,a,b,-,ha,hb,rfl⟩:=fork_eq_ok h
   exact .branch hid hm hwa (ih _ _ _ _ ha) (ih _ _ _ _ hb)
  | two hbr hw hwa heq=>
   rw[heq]at h
   obtain⟨p,a,b,-,ha,hb,rfl⟩:=fork_eq_ok h
   exact .two hbr hw hwa (ih _ _ _ _ ha) (ih _ _ _ _ hb)
  | one hbr hw hwa heq=>
   rw[heq]at h
   exact .one hbr hw hwa (ih _ _ _ _ h)
  | waits hw hwa heq=>
   rw[heq]at h
   cases h
   exact .waits hw hwa
  | gap hbr hw hwa heq=>
   rw[heq]at h
   obtain⟨p,b,-,hb,hbrs,-,hp⟩:=linger_eq_ok h
   rw[hbrs]
   exact .gap hbr hw hwa (ih _ _ _ _ hb) hp
lemma Expands.becomes (h:Expands c t V O V'):∀w∈O,Becomes c t w:=by
 induction h with
 | taken _ _=>exact fun w hw=>absurd hw not_mem_nil
 | branch _ _ hwa _ _ ih ih' | two _ _ hwa _ _ ih ih'=>
  intro w hw
  rcases mem_append.1 hw with hw|hw
  ·exact .of_ways ((hwa _).2 (.inl rfl)) (ih w hw)
  ·exact .of_ways ((hwa _).2 (.inr rfl)) (ih' w hw)
 | one _ _ hwa _ ih=>
  intro w hw
  exact .of_ways (by simp[hwa]) (ih w hw)
 | waits hw _=>
  intro w hm
  rw[mem_singleton.1 hm]
  exact .of_waits hw
 | gap _ hw hwa _ hp ih=>
  intro w hm
  rcases mem_cons.1 (hp.mem_iff.1 hm) with rfl|hm
  ·exact .of_waits hw
  ·exact .of_ways (by simp[hwa]) (ih w hm)

/-- A thread can become another one without taking a branch of a list. -/
inductive Free (c:Code)(V:List Nat)(w:Thread):Thread→Prop
 | here {t:Thread}:t.waits c=some w→Free c V w t
 | on {t u:Thread}:(∀id∈V,c.branch? t.address≠some id)→u∈t.ways c→Free c V w u→
  Free c V w t
lemma Free.of_becomes (h:Becomes c t w):Free c [] w t:=by
 obtain⟨u,hu,hw⟩:=h
 induction hu using ReflTransGen.head_induction_on with
 | refl=>exact .here hw
 | head hs _ ih=>exact .on (by simp) hs ih
lemma Free.mono (hV:V' ⊆ V)(h:Free c V w t):Free c V' w t:=by
 induction h with
 | here hw=>exact .here hw
 | on hf hu _ ih=>exact .on (fun id hid=>hf id (hV hid)) hu ih
lemma Free.avoid (h:Free c V w t)(V':List Nat):
 Free c V' w t∨∃u,Onward c t u∧Free c V w u∧∃id∈V',id∉V∧c.branch? u.address=some id:=by
 induction h with
 | here hw=>exact .inl (.here hw)
 | @on t u hf hu hr ih=>
  by_cases hbr:∃id∈V',c.branch? t.address=some id
  ·obtain⟨id,hid,hbr⟩:=hbr
   refine .inr ⟨t,.refl,.on hf hu hr,id,hid,?_,hbr⟩
   exact fun hm=>hf id hm hbr
  ·rcases ih with ih|⟨x,hx,ih⟩
   ·exact .inl (.on (fun id hid h=>hbr ⟨id,hid,h⟩) hu ih)
   ·exact .inr ⟨x,.head hu hx,ih⟩

/-- What an expansion finds for all threads that one thread goes on to: what its own threads can become without the
branches taken before, and what the branches taken meanwhile lead to. -/
structure Covers (c:Code)(root:Thread)(V:List Nat)(T O:List Thread)(V':List Nat):
 Prop where
 subset:V ⊆ V'
 starts:∀t∈T,∀w,Free c V w t→w∈O
 branches:∀t id,Onward c root t→c.branch? t.address=some id→id∈V'→id∉V→∀w,Free c V w t→w∈O
section
variable {V1 V2:List Nat}{T T' O':List Thread}
lemma Covers.append (h:Covers c root V T O V1)(h':Covers c root V1 T' O' V2)
 (hT':∀t∈T',Onward c root t):Covers c root V (T++T') (O++O') V2:=by
 -- a way of the second part avoids the branches of the first one, or takes one of them
 have hb:∀t,Onward c root t→(∀w,Free c V1 w t→w∈O')→∀w,Free c V w t→w∈O++O':=by
  intro t ht hs w hf
  rcases hf.avoid V1 with hf|⟨u,hu,hf,id,hid,hn,hbr⟩
  ·exact mem_append_right _ (hs w hf)
  ·exact mem_append_left _ (h.branches u id (ht.trans hu) hbr hid hn w hf)
 refine⟨Subset.trans h.subset h'.subset,?_,?_⟩
 ·intro t ht
  rcases mem_append.1 ht with ht|ht
  ·exact fun w hf=>mem_append_left _ (h.starts t ht w hf)
  ·exact hb t (hT' t ht) (h'.starts t ht)
 ·intro t id ht hbr hid hn
  by_cases hfs:id∈V1
  ·exact fun w hf=>mem_append_left _ (h.branches t id ht hbr hfs hn w hf)
  ·exact hb t ht (h'.branches t id ht hbr hid hfs)
lemma Covers.branch (hso:Solo c root){t:Thread}{id:Nat}(ht:Onward c root t)
 (hbr:c.branch? t.address=some id)
 (h:Covers c root (id::V) (t.ways c) O V1):Covers c root V [t] O V1:=by
 have hs:∀u,Onward c root u→c.branch? u.address=some id→u=t:=by
  intro u hu hid
  exact hso u t hu ht (by simp[hid]) (by rw[hid,hbr])
 have hl:∀{w u},Free c V w u→Onward c root u→Free c (id::V) w u∨∃x∈t.ways c,Free c (id::V) w x:=by
  intro w u hf
  induction hf with
  | here hw=>exact fun _=>.inl (.here hw)
  | @on u x _ hx _ ih=>
   intro hu
   rcases ih (hu.tail hx) with ih|ih
   ·by_cases hid:c.branch? u.address=some id
    ·rw[hs u hu hid]at hx
     exact .inr ⟨x,hx,ih⟩
    ·refine .inl (.on ?_ hx ih)
     grind
   ·exact .inr ih
 have hst:∀w,Free c V w t→w∈O:=by
  intro w hf
  rcases hl hf ht with hf|⟨x,hx,hf⟩
  ·cases hf with
   | here h=>rw[waits_of_branch hbr]at h;cases h
   | on hf _ _=>exact absurd hbr (hf id mem_cons_self)
  ·exact h.starts x hx w hf
 refine⟨fun i hi=>h.subset (mem_cons_of_mem _ hi),?_,?_⟩
 ·intro u hu
  rw[mem_singleton.1 hu]
  exact hst
 intro u i hu hbr' hi hn w hf
 by_cases hid:i=id
 ·rw[hs u hu (hid▸hbr')]at hf
  exact hst w hf
 ·rcases hl hf hu with hf|⟨x,hx,hf⟩
  ·exact h.branches u i hu hbr' hi (by simp[hid,hn]) w hf
  ·exact h.starts x hx w hf
lemma Covers.on {t:Thread}(hw:t.waits c=none)(h:Covers c root V (t.ways c) O V1):Covers c root V [t] O V1:=by
 refine⟨h.subset,?_,h.branches⟩
 intro u hu w hf
 rw[mem_singleton.1 hu]at hf
 cases hf with
 | here h=>rw[hw]at h;cases h
 | on _ hx hf=>exact h.starts _ hx w hf
lemma Covers.congr (hT:∀t,t∈T'→t∈T)(h:Covers c root V T O V1):Covers c root V T' O V1:=
 ⟨h.subset,fun t ht=>h.starts t (hT t ht),h.branches⟩
end
lemma Expands.covers (hs:Solo c root)(h:Expands c t V O V')(ht:Onward c root t):
 Covers c root V [t] O V':=by
 induction h with
 | @taken t V id hbr hid=>
  refine⟨fun _ h=>h,?_,fun _ _ _ _ h h'=>absurd h h'⟩
  intro u hu w hf
  rw[mem_singleton.1 hu]at hf
  cases hf with
  | here hw=>rw[waits_of_branch hbr]at hw;cases hw
  | on hf _ _=>exact absurd hbr (hf id hid)
 | branch hbr _ hwa _ _ ih ih'=>
  have hu:Onward c root _:=ht.tail ((hwa _).2 (.inl rfl))
  have hu':Onward c root _:=ht.tail ((hwa _).2 (.inr rfl))
  refine .branch hs ht hbr (((ih hu).append (ih' hu') ?_).congr ?_)
  ·simpa using hu'
  ·simp[hwa]
 | two _ hw hwa _ _ ih ih'=>
  have hu:Onward c root _:=ht.tail ((hwa _).2 (.inl rfl))
  have hu':Onward c root _:=ht.tail ((hwa _).2 (.inr rfl))
  refine .on hw (((ih hu).append (ih' hu') ?_).congr ?_)
  ·simpa using hu'
  ·simp[hwa]
 | one _ hw hwa _ ih=>
  refine .on hw ?_
  rw[hwa]
  exact ih (ht.tail (by simp[hwa]))
 | waits hw hwa=>
  refine⟨fun _ h=>h,?_,fun _ _ _ _ h h'=>absurd h h'⟩
  intro u hu w hf
  rw[mem_singleton.1 hu]at hf
  cases hf with
  | here h=>
   rw[hw]at h
   cases h
   exact mem_cons_self
  | on _ hx _=>simp[hwa]at hx
 | gap _ hw hwa _ hp ih=>
  refine⟨fun _ h=>h,?_,fun _ _ _ _ h h'=>absurd h h'⟩
  intro u hu w hf
  rw[mem_singleton.1 hu]at hf
  rw[hp.mem_iff]
  cases hf with
  | here h=>
   rw[hw]at h
   cases h
   exact mem_cons_self
  | on _ hx hf=>
   rw[hwa,mem_singleton]at hx
   refine mem_cons_of_mem _ ((ih (ht.tail (by simp[hwa]))).starts _ mem_cons_self w ?_)
   rw[←hx]
   exact hf.mono (nil_subset _)
lemma becomes_of_mem_expand (h:expand c fuel t V pool=.ok X)(hw:w∈X.threads):Becomes c t w:=
 (expand_expands fuel t V pool X h).becomes w hw
lemma mem_expand_of_becomes (hs:Solo c t)(h:expand c fuel t [] pool=.ok X)(hw:Becomes c t w):w∈X.threads:=
 ((expand_expands fuel t [] pool X h).covers hs .refl).starts t mem_cons_self w (.of_becomes hw)
end Thread
end PatternScan.Regex