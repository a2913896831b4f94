import PatternScan.Proofs.Regex.Emission
import PatternScan.Proofs.Regex.Expansion
import PatternScan.Proofs.Regex.Steadiness
/-! A run of the code of a pattern, from its start or from one of its leaves, reports the lengths that
the tree gives. -/
namespace PatternScan.Regex
open Option Bool Code Array
open Thread (waits distinct ways)
open List PatternScan.Regex.Thread
open Machine
variable {v:Nat→Inst→Verdict}{ins:Inst}{w u:Thread}{j x least most:Nat}{d:List Thread}{pl:Pool}{l:Array Nat}{g:Bool}{i:Nat}{c:Code}{t:Thread}
def look (f:RunFlags)(inp:Input)(i:Nat)(inst:Inst):Verdict:=
 verdict f (view f inp (i*width f)) inst
def Starts (f:RunFlags)(inp:Input)(i:Nat):Prop:=
 i=0∨f.search=true∧i*width f<reach f inp
lemma verdict_cases (f:RunFlags)(v:View)(ins:Inst):
 (∃ok:Bool,verdict f v ins=if !v.blocked&&ok then .read else .die)∨
 (∃ok:Bool,verdict f v ins=if ok then .pass else .die)∨ins=.accept:=by
 cases ins with
 | accept=>exact .inr (.inr rfl)
 | boundary | nonBoundary | atStart | atEnd=>exact .inr (.inl ⟨_,rfl⟩)
 | split | jump | repeatStart | repeatEnd | filler=>exact .inr (.inl ⟨false,rfl⟩)
 | _=>exact .inl ⟨_,rfl⟩
lemma verdict_eq_accept {f:RunFlags}{v:View}:verdict f v ins=.accept↔ins=.accept:=by
 constructor
 ·intro h
  rcases verdict_cases f v ins with⟨ok,hv⟩|⟨ok,hv⟩|hv
  ·rw[hv]at h
   split at h<;>cases h
  ·rw[hv]at h
   split at h<;>cases h
  ·exact hv
 ·rintro rfl
  rfl
lemma isTest_of_pass {f:RunFlags}{v:View}(h:verdict f v ins=.pass):ins.isTest:=by
 cases ins with
 | boundary | nonBoundary | atStart | atEnd=>rfl
 | accept | split | jump | repeatStart | repeatEnd | filler=>cases h
 | _=>
  obtain⟨b,hb⟩:∃b:Bool,Verdict.pass=if b then .read else .die:=⟨_,h.symm⟩
  cases b<;>cases hb
lemma proper_look (f:RunFlags)(inp:Input):Proper (look f inp) where
 filler _:=rfl
 accept _:=rfl
 gap i lo hi g h:=by
  have hv:look f inp i (.gap lo hi g)=if !(view f inp (i*width f)).blocked &&
   (f.dotAll||(view f inp (i*width f)).byte≠10) then .read else .die:=rfl
  rw[hv]at h
  split at h<;>cases h
lemma look_read {f:RunFlags}{inp:Input}
 (h:look f inp i ins=.read):i*width f<reach f inp:=by
 rcases verdict_cases f (view f inp (i*width f)) ins with⟨ok,hv⟩|⟨ok,hv⟩|rfl
 ·rw[look,hv]at h
  split at h
  ·rename_i hb
   rw[and_eq_true,not_eq_true',view,or_eq_false_iff,decide_eq_false_iff_not]at hb
   omega
  ·cases h
 ·rw[look,hv]at h
  split at h<;>cases h
 ·cases h
lemma Thread.waits_address (h:t.waits c=some w):w.address=t.address:=by
 rw[waits]at h
 split at h
 any_goals cases h
 ·split at h<;>cases h
  rfl
 ·rfl
lemma Reaches.onward (h:Onward c t u):Reaches c v t i u i:=by
 induction h using Relation.ReflTransGen.head_induction_on with
 | refl=>exact .refl
 | head hu _ ih=>exact .on hu ih
inductive Ends (c:Code)(v:Nat→Inst→Verdict):Thread→Nat→Nat→Prop
 | accept {w:Thread}{i:Nat}:c.fetch w.address=.accept→Ends c v w i i
 | read {w x:Thread}{i j:Nat}:v i (c.fetch w.address)=.read→
  Becomes c (advance w (c.fetch w.address)) x→Ends c v x (i+1) j→Ends c v w i j
 | pass {w x:Thread}{i j:Nat}:v i (c.fetch w.address)=.pass→
  Becomes c (advance w (c.fetch w.address)) x→Ends c v x i j→Ends c v w i j
lemma Reaches.ends (h:Reaches c v t i u j)(hu:c.fetch u.address=.accept):
 ∃w,Becomes c t w∧Ends c v w i j:=by
 obtain⟨n,h⟩:=h
 induction h with
 | refl=>exact⟨_,.of_waits (by rw[waits,hu]),.accept hu⟩
 | step hm _ ih=>
  obtain⟨x,hx,hen⟩:=ih hu
  cases hm with
  | on hwa=>exact⟨x,.of_ways hwa hx,hen⟩
  | read hw hr=>
   rw[←waits_address hw]at hr hx
   exact⟨_,.of_waits hw,.read hr hx hen⟩
  | pass hw hpa=>
   rw[←waits_address hw]at hpa hx
   exact⟨_,.of_waits hw,.pass hpa hx hen⟩
/-- The thread itself is not given back where it is expanded. -/
def Thread.Keeps (c:Code)(t:Thread):Prop:=∀fuel pool X,expand c fuel t [] pool=.ok X→X.kept
/-- Whatever thread passes a test of the code goes on as itself. -/
def Code.Firm (c:Code):Prop:=∀w:Thread,(c.fetch w.address).isTest→(advance w (c.fetch w.address)).Keeps c
def Inst.moves:Inst→Bool
 | .split _ _ _ | .jump _ | .repeatStart _ _ _ _ | .repeatEnd _ _ _ _ | .gap _ _ _=>true
 | _=>false
/-- Just behind each test a thread waits again. -/
lemma Code.firm_of_still (h:∀x<c.size,(c.fetch x).isTest→(c.fetch (x+1)).moves=false):c.Firm:=by
 rintro w hw (_|n) p X hX
 ·cases hX
 have hlt:w.address<c.size:=by
  by_contra hge
  rw[c.fetch_of_size_le _ (not_lt.1 hge)]at hw
  cases hw
 have ha:advance w (c.fetch w.address)={w with address:=w.address+1}:=by
  cases hq:c.fetch w.address<;>rw[hq]at hw<;>first | rfl | cases hw
 have hc:({w with address:=w.address+1}:Thread).course c []=.wait {w with address:=w.address+1}:=by
  have hm:=h _ hlt hw
  rw[course]
  cases hq:c.fetch (w.address+1)<;>rw[hq]at hm<;>first | rfl | cases hm
 rw[ha,expand,hc]at hX
 cases hX
 rfl
section
variable (c:Code)(f:RunFlags)(inp:Input)(entry:Nat){s s':State}
def Live (i:Nat)(w:Thread):Prop:=
 ∃i0 u,Starts f inp i0∧Reaches c (look f inp) (start entry) i0 u i∧u.waits c=some w
def Found (r:Nat):Prop:=
 ∃i0 i u,Starts f inp i0∧Reaches c (look f inp) (start entry) i0 u i∧
  c.fetch u.address=.accept∧r=i*width f

/-- A thread that passes a test goes on as itself. -/
def Firm:Prop:=
 ∀i w,Live c f inp entry i w→look f inp i (c.fetch w.address)=.pass→(advance w (c.fetch w.address)).Keeps c

/-- No thread comes to a branch in two ways between two inputs. -/
structure Steady:Prop where
 solo:∀i0 i u,Starts f inp i0→Reaches c (look f inp) (start entry) i0 u i→u.Solo c
 firm:Firm c f inp entry
structure Swept (i:Nat)(lengths:Array Nat)(o:Except Fault State×Array Nat):Prop where
 found:∀r∈o.2,r∈lengths∨Found c f inp entry r
 live:∀s,o.1=.ok s→∀x∈s.threads,Live c f inp entry (i+1) x
 stays:o.1≠.error .lost

/-- A match that ends at a position is reported, or another one in its stead. -/
def Reported (lengths:Array Nat)(j:Nat):Prop:=
 j*width f∈lengths∨f.exhaustive=false∧lengths≠#[]
def Due (i:Nat)(s:State)(j:Nat):Prop:=
 Reported f s.lengths j∨∃x∈s.threads,Ends c (look f inp) x (i+1) j
structure Kept (i:Nat)(ts done:List Thread)(lengths:Array Nat)(s:State):Prop where
 lengths:∀r∈lengths,r∈s.lengths
 threads:∀w∈ts,∀j,Ends c (look f inp) w i j→Due c f inp i s j
 done:∀x∈done,∀j,Ends c (look f inp) x (i+1) j→Due c f inp i s j

/-- A match that a state still has to report: one of its threads comes to it, or one that is started later. -/
def Owed (i:Nat)(s:State)(j:Nat):Prop:=
 (∃w∈s.threads,Ends c (look f inp) w i j)∨
 ∃k w,i<k∧Starts f inp k∧Becomes c (start entry) w∧Ends c (look f inp) w k j
def Idle (i:Nat)(s:State):Prop:=
 f.search=true→i*width f<reach f inp→s.threads=[]→∀w,¬Becomes c (start entry) w
variable {c f inp entry}{allowed:Allowance}{x:Thread}
lemma Code.Firm.run (h:c.Firm):PatternScan.Regex.Firm c f inp entry:=fun _ w _ hp=>h w (isTest_of_pass hp)
lemma Live.start (hi:Starts f inp i)(hx:Becomes c (Thread.start entry) x):Live c f inp entry i x:=by
 obtain⟨u,hu,hx⟩:=hx
 exact⟨i,u,hi,.onward hu,hx⟩
lemma Live.read (h:Live c f inp entry i w)(hr:look f inp i (c.fetch w.address)=.read)
 (hx:Becomes c (advance w (c.fetch w.address)) x):Live c f inp entry (i+1) x:=by
 obtain⟨i0,t,hi,ht,hw⟩:=h
 obtain⟨u,hu,hx⟩:=hx
 rw[waits_address hw]at hr hu
 exact⟨i0,u,hi,ht.trans (.head (.read hw hr) (.onward hu)),hx⟩
lemma Live.pass (h:Live c f inp entry i w)(hpa:look f inp i (c.fetch w.address)=.pass)
 (hx:Becomes c (advance w (c.fetch w.address)) x):Live c f inp entry i x:=by
 obtain⟨i0,t,hi,ht,hw⟩:=h
 obtain⟨u,hu,hx⟩:=hx
 rw[waits_address hw]at hpa hu
 exact⟨i0,u,hi,ht.trans (.head (.pass hw hpa) (.onward hu)),hx⟩
lemma Live.found (h:Live c f inp entry i w)(hw:c.fetch w.address=.accept):Found c f inp entry (i*width f):=by
 obtain⟨i0,u,hi,hu,hwa⟩:=h
 exact⟨i0,i,u,hi,hu,by rw[←waits_address hwa,hw],rfl⟩
lemma Live.solo (hs:Steady c f inp entry)(h:Live c f inp entry i w)
 (hv:look f inp i (c.fetch w.address)=.read∨look f inp i (c.fetch w.address)=.pass):
 (advance w (c.fetch w.address)).Solo c:=by
 obtain⟨i0,u,hi,hu,hw⟩:=h
 rw[waits_address hw]at hv⊢
 rcases hv with hv|hv
 ·exact hs.solo i0 _ _ hi (hu.trans (.head (.read hw hv) .refl))
 ·exact hs.solo i0 _ _ hi (hu.trans (.head (.pass hw hv) .refl))
lemma mem_distinct (ts:List Thread):∀(kept:List Thread)(po:Pool),w∈(distinct ts kept po).1↔w∈ts∨w∈kept:=by
 induction ts with
 | nil=>simp[distinct]
 | cons t _ _=>
  intro kept po
  rw[distinct]
  grind
lemma sweep_lengths {v:View}{fl:Nat}{ts d:List Thread}{p:Pool}:
 (sweep allowed c f v fl ts d p l).1=.ok s→s.lengths=(sweep allowed c f v fl ts d p l).2:=by
 fun_induction sweep allowed c f v fl ts d p l with
 | case1 | case5=>
  rintro⟨⟩
  rfl
 | case2 | case8 | case9 | case11=>rintro⟨⟩
 | _=>assumption
lemma take_ne_lost (p:Pool):take p≠.error .lost:=by
 rw[Thread.take]
 split<;>nofun
lemma expand_ne_lost (n:Nat)(t:Thread)(V:List Nat)(p:Pool):expand c n t V p≠.error .lost:=by
 fun_induction expand c n t V p with
 | case1 | case2 | case3=>nofun
 | case4=>assumption
 | case5 _ _ _ _ _ _ _ _ iha ihb=>
  exact bind_ne_error (take_ne_lost _) fun q=>bind_ne_error (iha q) fun X=>bind_ne_error (ihb X) nofun
 | case6 _ _ _ _ _ _ _ _ ih=>exact bind_ne_error (take_ne_lost _) fun q=>bind_ne_error (ih q) nofun
lemma spawn_ne_lost:spawn allowed c entry s≠.error .lost:=
 bind_ne_error (take_ne_lost _) fun _=>bind_ne_error (expand_ne_lost _ _ _ _) nofun
lemma sweep_swept (hfi:Firm c f inp entry)(allowed:Allowance)(fl:Nat)(ts dn:List Thread)(po:Pool)(ln:Array Nat):
 (∀w∈ts,Live c f inp entry i w)→(∀x∈dn,Live c f inp entry (i+1) x)→
 Swept c f inp entry i ln (sweep allowed c f (view f inp (i*width f)) fl ts dn po ln):=by
 fun_induction sweep allowed c f (view f inp (i*width f)) fl ts dn po ln with
 | case1=>
  intro _ hd
  refine⟨fun r hr=>.inl hr,?_,nofun⟩
  rintro _ ⟨⟩ x hx
  exact hd x (mem_reverse.1 hx)
 | case2=>exact fun _ _=>⟨fun r hr=>.inl hr,nofun,nofun⟩
 | case9 _ _ _ _ _ _ _ _ e he | case11 _ _ _ _ _ _ _ _ e he=>
  refine fun _ _=>⟨fun r hr=>.inl hr,nofun,?_⟩
  rintro⟨⟩
  exact expand_ne_lost _ _ _ _ he
 | case3=>
  next ih=>
  exact fun ht hd=>ih (forall_mem_cons.1 ht).2 hd
 | case4 fl t ts d p l _ hv _ hex ih=>
  intro ht hd
  obtain⟨ht,hts⟩:=forall_mem_cons.1 ht
  obtain⟨h1,h2,h3⟩:=ih hts hd
  refine⟨fun r hr=>?_,h2,h3⟩
  rcases h1 r hr with hr|hr
  ·rcases mem_push.1 hr with hr|rfl
   ·exact .inl hr
   ·exact .inr (ht.found (verdict_eq_accept.1 hv))
  ·exact .inr hr
 | case5 fl t ts d p l _ hv _ hex=>
  intro ht hd
  refine⟨fun r hr=>?_,?_,nofun⟩
  ·rcases mem_push.1 hr with hr|rfl
   ·exact .inl hr
   ·exact .inr ((ht t mem_cons_self).found (verdict_eq_accept.1 hv))
  ·rintro _ ⟨⟩ x hx
   exact hd x (mem_reverse.1 hx)
 | case6 fl t ts d p l _ hv X hX _ ih=>
  intro ht hd
  obtain⟨ht,hts⟩:=forall_mem_cons.1 ht
  exact ih (forall_mem_append.2 ⟨fun w hw=>ht.pass hv (becomes_of_mem_expand hX hw),hts⟩) hd
 | case7 fl t ts d p l _ hv X hX hk | case8 fl t ts d p l _ hv X hX hk=>
  exact fun ht=>absurd (hfi i t (ht t mem_cons_self) hv _ _ X hX) hk
 | case10 fl t ts d p l _ hv X hX ih=>
  intro ht hd
  obtain⟨ht,hts⟩:=forall_mem_cons.1 ht
  exact ih hts (forall_mem_append.2 ⟨fun w hw=>ht.read hv (becomes_of_mem_expand hX (mem_reverse.1 hw)),hd⟩)
lemma Reported.mono {l':Array Nat}(hl:∀r∈l,r∈l')(h:Reported f l j):Reported f l' j:=by
 rcases h with h|⟨hf,h⟩
 ·exact .inl (hl _ h)
 ·obtain⟨r,hr⟩:=exists_mem_of_ne_empty l h
  refine .inr ⟨hf,?_⟩
  rintro rfl
  exact absurd (hl r hr) (not_mem_empty r)
lemma Ends.next (h:Ends c (look f inp) w i j):
 match verdict f (view f inp (i*width f)) (c.fetch w.address) with
 | .die=>False
 | .accept=>j=i
 | .read=>∃x,Becomes c (advance w (c.fetch w.address)) x∧
  Ends c (look f inp) x (i+1) j
 | .pass=>∃x,Becomes c (advance w (c.fetch w.address)) x∧
  Ends c (look f inp) x i j:=by
 cases h with
 | accept ha=>rw[verdict_eq_accept.2 ha]
 | read hr hx hen=>
  rw[look]at hr
  rw[hr]
  exact⟨_,hx,hen⟩
 | pass hpa hx hen=>
  rw[look]at hpa
  rw[hpa]
  exact⟨_,hx,hen⟩
lemma Kept.stop:Kept c f inp i [] d l ⟨d.reverse,pl,l⟩:=by
 refine⟨fun r hr=>hr,fun w hw=>absurd hw not_mem_nil,?_⟩
 intro x hx j hen
 exact .inr ⟨x,mem_reverse.2 hx,hen⟩
lemma Kept.cons {t:Thread}{ts d:List Thread}{l:Array Nat}{s:State}(h:Kept c f inp i ts d l s)
 (ht:∀j,Ends c (look f inp) t i j→Due c f inp i s j):
 Kept c f inp i (t::ts) d l s:=
 ⟨h.lengths,forall_mem_cons.2 ⟨ht,h.threads⟩,h.done⟩
lemma sweep_kept (hs:Steady c f inp entry)(fl:Nat)(ts dn:List Thread)(po:Pool)(ln:Array Nat):
 (∀w∈ts,Live c f inp entry i w)→(sweep allowed c f (view f inp (i*width f)) fl ts dn po ln).1=.ok s→
 Kept c f inp i ts dn ln s:=by
 fun_induction sweep allowed c f (view f inp (i*width f)) fl ts dn po ln with
 | case1=>
  rintro _ ⟨⟩
  exact .stop
 | case2 | case8 | case9 | case11=>rintro _ ⟨⟩
 | case3 fl t ts d p ln _ hv ih=>
  intro ht h
  refine (ih (forall_mem_cons.1 ht).2 h).cons fun j hen=>?_
  have hn:=hen.next
  rw[hv]at hn
  exact hn.elim
 | case4 fl t ts d p ln _ hv _ hex ih=>
  intro ht h
  have hk:=ih (forall_mem_cons.1 ht).2 h
  refine Kept.cons ⟨fun r hr=>hk.lengths r (mem_push_of_mem _ hr),hk.threads,hk.done⟩ fun j hen=>?_
  have hn:=hen.next
  rw[hv]at hn
  subst hn
  exact .inl (.inl (hk.lengths _ mem_push_self))
 | case5 fl t ts d p ln _ hv _ hex=>
  -- the match ends the threads behind it
  rintro _ ⟨⟩
  have hdu:∀j,Due c f inp i ⟨d.reverse,p.release (ts.length+1),ln.push (i*width f)⟩ j:=
   fun j=>.inl (.inr ⟨by simpa using hex,push_ne_empty⟩)
  exact⟨fun r hr=>mem_push_of_mem _ hr,fun _ _ j _=>hdu j,fun _ _ j _=>hdu j⟩
 | case6 fl t ts d p ln _ hv X hX _ ih=>
  intro ht h
  obtain⟨ht,hts⟩:=forall_mem_cons.1 ht
  have hk:=ih (forall_mem_append.2 ⟨fun w hw=>ht.pass hv (becomes_of_mem_expand hX hw),hts⟩) h
  refine Kept.cons ⟨hk.lengths,fun w hw=>hk.threads w (mem_append_right _ hw),hk.done⟩ fun j hen=>?_
  have hn:=hen.next
  rw[hv]at hn
  obtain⟨x,hx,hen⟩:=hn
  exact hk.threads x (mem_append_left _ (mem_expand_of_becomes (ht.solo hs (.inr hv)) hX hx)) j hen
 | case7 fl t ts d p ln _ hv X hX hk=>
  exact fun ht=>absurd (hs.firm i t (ht t mem_cons_self) hv _ _ X hX) hk
 | case10 fl t ts d p ln _ hv X hX ih=>
  intro ht h
  obtain⟨ht,hts⟩:=forall_mem_cons.1 ht
  have hk:=ih hts h
  refine Kept.cons ⟨hk.lengths,hk.threads,fun x hx=>hk.done x (mem_append_right _ hx)⟩ fun j hen=>?_
  have hn:=hen.next
  rw[hv]at hn
  obtain⟨x,hx,hen⟩:=hn
  refine hk.done x (mem_append_left _ (mem_reverse.2 ?_)) j hen
  exact mem_expand_of_becomes (ht.solo hs (.inl hv)) hX hx
lemma spawn_eq_ok (h:spawn allowed c entry s=.ok s'):
 ∃po X,expand c allowed.expand (start entry) [] po=.ok X∧
  s'.threads=s.threads++X.threads∧s'.lengths=s.lengths:=by
 obtain⟨po,-,h⟩:=bind_eq_ok.1 h
 obtain⟨X,hX,h⟩:=bind_eq_ok.1 h
 cases h
 exact⟨po,X,hX,rfl,rfl⟩
lemma spawn_live (hi:Starts f inp i)(h:spawn allowed c entry s=.ok s')
 (hs:∀w∈s.threads,Live c f inp entry i w):∀w∈s'.threads,Live c f inp entry i w:=by
 obtain⟨po,X,hX,ht,-⟩:=spawn_eq_ok h
 intro w hw
 rw[ht]at hw
 rcases mem_append.1 hw with hw|hw
 ·exact hs w hw
 ·exact .start hi (becomes_of_mem_expand hX hw)
lemma rounds_found (hfi:Firm c f inp entry)(n:Nat):∀(i:Nat)(s:State),
 (∀w∈s.threads,Live c f inp entry i w)→(∀r∈s.lengths,Found c f inp entry r)→
 (∀r∈(rounds allowed c f inp entry n (i*width f) s).lengths,Found c f inp entry r)∧
  (rounds allowed c f inp entry n (i*width f) s).result≠.error .lost:=by
 induction n with
 | zero=>
  refine fun i s _ hl=>⟨hl,?_⟩
  rw[rounds]
  dsimp only
  split<;>nofun
 | succ n ih=>
  intro i s hs hl
  rw[rounds]
  split
  ·exact⟨hl,nofun⟩
  dsimp only
  have hsw:=sweep_swept hfi allowed allowed.sweep (distinct s.threads [] s.pool).1 []
   (distinct s.threads [] s.pool).2 s.lengths
   (fun w hw=>hs w (((mem_distinct _ _ _).1 hw).resolve_right not_mem_nil))
   (fun x hx=>absurd hx not_mem_nil)
  have hf:=fun r hr=>(hsw.found r hr).elim (hl r) id
  split
  ·rename_i o e l ho
   rw[ho]at hf hsw
   exact⟨hf,by simpa using hsw.stays⟩
  rename_i o s' l ho
  rw[ho]at hf hsw
  have hli:=hsw.live s' rfl
  have hle:=sweep_lengths (congrArg Prod.fst ho)
  rw[ho]at hle
  dsimp only at hle hf
  rw[←hle]at hf
  rw[←Nat.succ_mul]
  by_cases hse:(f.search&&decide ((i+1)*width f<reach f inp))=true
  ·rw[if_pos hse]
   have hst:Starts f inp (i+1):=.inr (by simpa using hse)
   split
   ·rename_i s'' hsp
    obtain⟨-,-,-,-,hl''⟩:=spawn_eq_ok hsp
    exact ih (i+1) s'' (spawn_live hst hsp hli) (by rwa[hl''])
   ·rename_i e he
    refine⟨by rwa[←hle],?_⟩
    rintro⟨⟩
    exact spawn_ne_lost he
  ·rw[if_neg hse]
   exact ih (i+1) s' hli hf
lemma width_pos (f:RunFlags):0<width f:=by
 rw[width]
 split<;>decide
lemma Starts.search (h:Starts f inp i)(hi:0 < i):f.search∧i*width f<reach f inp:=
 h.resolve_left (ne_of_gt hi)
lemma not_owed (hs:s.threads=[])(hi:Idle c f inp entry i s)(j:Nat):¬Owed c f inp entry i s j:=by
 rintro (⟨w,hw,-⟩|⟨k,w,hk,hst,hw,-⟩)
 ·rw[hs]at hw
  exact absurd hw not_mem_nil
 ·obtain⟨hse,hr⟩:=hst.search (by omega)
  have:i*width f<k*width f:=Nat.mul_lt_mul_of_pos_right hk (width_pos f)
  exact hi hse (by omega) hs w hw
lemma Kept.owed_spawn {s'':State}(hst:Steady c f inp entry)
 (h:Kept c f inp i s.threads [] s.lengths s')(hi:Starts f inp (i+1))
 (hsp:spawn allowed c entry s'=.ok s'')(hj:Owed c f inp entry i s j):
 Reported f s''.lengths j∨Owed c f inp entry (i+1) s'' j:=by
 obtain⟨po,X,hX,ht,hl⟩:=spawn_eq_ok hsp
 rw[hl]
 rcases hj with⟨w,hw,hen⟩|⟨k,w,hk,hs,hw,hen⟩
 ·rcases h.threads w hw j hen with hr|⟨x,hx,hen⟩
  ·exact .inl hr
  ·exact .inr (.inl ⟨x,by simp[ht,hx],hen⟩)
 ·rcases Nat.lt_or_eq_of_le hk with hk|rfl
  ·exact .inr (.inr ⟨k,w,hk,hs,hw,hen⟩)
  ·have hm:=mem_expand_of_becomes (hst.solo (i+1) (i+1) _ hi .refl) hX hw
   exact .inr (.inl ⟨w,by simp[ht,hm],hen⟩)
lemma Kept.owed (h:Kept c f inp i s.threads [] s.lengths s')(hi:¬(f.search∧(i+1)*width f<reach f inp))
 (hj:Owed c f inp entry i s j):
 Reported f s'.lengths j∨Owed c f inp entry (i+1) s' j:=by
 rcases hj with⟨w,hw,hen⟩|⟨k,w,hk,hs,-⟩
 ·rcases h.threads w hw j hen with hr|hx
  ·exact .inl hr
  ·exact .inr (.inl hx)
 ·obtain⟨hse,hre⟩:=hs.search (by omega)
  have:(i+1)*width f≤k*width f:=Nat.mul_le_mul_right _ hk
  exact absurd ⟨hse,by omega⟩ hi
lemma rounds_reported (hst:Steady c f inp entry)(n:Nat):∀(i:Nat)(s:State),
 (∀w∈s.threads,Live c f inp entry i w)→Idle c f inp entry i s→
 (rounds allowed c f inp entry n (i*width f) s).result=.ok ()→
 (∀r∈s.lengths,r∈(rounds allowed c f inp entry n (i*width f) s).lengths)∧
 ∀j,Owed c f inp entry i s j→Reported f (rounds allowed c f inp entry n (i*width f) s).lengths j:=by
 induction n with
 | zero=>
  intro i s _ hi hok
  rw[rounds]at hok⊢
  have hs:s.threads=[]:=by
   by_contra hne
   rw[if_neg (by simpa using hne)]at hok
   cases hok
  exact⟨fun r hr=>hr,fun j h=>absurd h (not_owed hs hi j)⟩
 | succ n ih=>
  intro i s hl hi hok
  rw[rounds]at hok⊢
  by_cases hs:s.threads=[]
  ·rw[if_pos (by simp[hs])]
   exact⟨fun r hr=>hr,fun j h=>absurd h (not_owed hs hi j)⟩
  rw[if_neg (by simpa using hs)]at hok⊢
  dsimp only at hok⊢
  have hme:∀w,w∈(distinct s.threads [] s.pool).1↔w∈s.threads:=by simp[mem_distinct]
  have hl:=fun w hw=>hl w ((hme w).1 hw)
  have hsw:=sweep_swept hst.firm allowed allowed.sweep (distinct s.threads [] s.pool).1 []
   (distinct s.threads [] s.pool).2 s.lengths hl
   (fun x hx=>absurd hx not_mem_nil)
  split
  ·rename_i o e l ho
   rw[ho]at hok
   cases hok
  rename_i o s' l ho
  rw[ho]at hok hsw
  have hl':=hsw.live s' rfl
  have hk:Kept c f inp i s.threads [] s.lengths s':=by
   have hk:=sweep_kept hst _ _ _ _ _ hl (congrArg Prod.fst ho)
   exact⟨hk.lengths,fun w hw=>hk.threads w ((hme w).2 hw),hk.done⟩
  rw[←Nat.succ_mul]at hok⊢
  dsimp only at hok⊢
  by_cases hse:f.search∧(i+1)*width f<reach f inp
  ·rw[if_pos (by simpa using hse)]at hok⊢
   split
   ·rename_i s'' hsp
    rw[hsp]at hok
    obtain⟨po,X,hX,ht,hle⟩:=spawn_eq_ok hsp
    have hi':Idle c f inp entry (i+1) s'':=by
     intro _ _ hn w hw
     have:=mem_expand_of_becomes (hst.solo _ (i+1) _ (.inr hse) .refl) hX hw
     rw[ht,append_eq_nil_iff]at hn
     rw[hn.2]at this
     exact not_mem_nil this
    obtain⟨hm,hre⟩:=
     ih (i+1) s'' (spawn_live (.inr hse) hsp hl') hi' hok
    rw[hle]at hm
    refine⟨fun r hr=>hm r (hk.lengths r hr),fun j hj=>?_⟩
    rcases hk.owed_spawn hst (.inr hse) hsp hj with hrp|hj
    ·rw[hle]at hrp
     exact hrp.mono hm
    ·exact hre j hj
   ·rename_i e hsp
    rw[hsp]at hok
    cases hok
  rw[if_neg (by simpa using hse)]at hok⊢
  obtain⟨hm,hre⟩:=
   ih (i+1) s' hl' (fun h h'=>absurd ⟨h,h'⟩ hse) hok
  refine⟨fun r hr=>hm r (hk.lengths r hr),fun j hj=>?_⟩
  rcases hk.owed hse hj with hrp|hj
  ·exact hrp.mono hm
  ·exact hre j hj
end
section
variable {f:RunFlags}{inp:Input}{entry:Nat}
lemma runWithin_found (hfi:Firm c f inp entry)(allowed:Allowance):
 (∀r∈(runWithin allowed c entry f inp).lengths,Found c f inp entry r)∧
  (runWithin allowed c entry f inp).result≠.error .lost:=by
 rw[runWithin]
 split
 ·rename_i s hs
  obtain⟨-,-,-,-,hl⟩:=spawn_eq_ok hs
  have hli:∀w∈s.threads,Live c f inp entry 0 w:=
   spawn_live (.inl rfl) hs fun w hw=>absurd hw not_mem_nil
  rw[←zero_mul (width f)]
  exact rounds_found hfi _ 0 s hli (by simp[hl])
 ·rename_i e he
  refine⟨fun r hr=>absurd hr (not_mem_empty r),?_⟩
  rintro⟨⟩
  exact spawn_ne_lost he
lemma found_of_mem_run (hfi:Firm c f inp entry){r:Nat}(h:r∈(run c entry f inp).lengths):Found c f inp entry r:=
 (runWithin_found hfi _).1 r h

/-- A run that comes to an end reports the end of every walk, or only one if one is asked for. -/
lemma reported_of_run (hst:Steady c f inp entry)
 (hok:(run c entry f inp).result=.ok ()){i0:Nat}(hi:Starts f inp i0)
 (hu:Reaches c (look f inp) (start entry) i0 u i)(ha:c.fetch u.address=.accept):
 Reported f (run c entry f inp).lengths i:=by
 rw[run,runWithin]at hok⊢
 split at hok
 ·rename_i s hs
  obtain⟨po,X,hX,ht,-⟩:=spawn_eq_ok hs
  have hm:∀w,Becomes c (start entry) w→w∈s.threads:=by
   intro w hw
   rw[ht]
   exact mem_expand_of_becomes (hst.solo 0 0 _ (.inl rfl) .refl) hX hw
  have hl:∀w∈s.threads,Live c f inp entry 0 w:=
   spawn_live (.inl rfl) hs fun w hw=>absurd hw not_mem_nil
  have hid:Idle c f inp entry 0 s:=by
   intro _ _ hn w hw
   have:=hm w hw
   rw[hn]at this
   exact not_mem_nil this
  obtain⟨w,hw,hen⟩:=hu.ends ha
  rw[←zero_mul (width f)]at hok⊢
  refine (rounds_reported hst _ 0 s hl hid hok).2 i ?_
  rcases Nat.eq_zero_or_pos i0 with rfl|hpo
  ·exact .inl ⟨w,hm w hw,hen⟩
  ·exact .inr ⟨i0,w,hpo,hi,hw,hen⟩
 ·cases hok
end
/-! Between any two positions that a pattern spans there is a walk through its code. -/
open Relation (Comp ReflTransGen)
open Emission (leaf?)
section
variable {K:List Nat}{s:Thread}{k:Nat}
lemma reaches_gap (hf:c.fetch x=.gap least most g)(m:Nat):
 ∀tk i,(∀y,i≤y→y < i+m→v y (.gap least most g)=.read)→
  least≤tk.getD 0+m→tk.getD 0+m ≤ max (tk.getD 0) (max least most)→
  Reaches c v ⟨x,K,tk⟩ i ⟨x+5,K,none⟩ (i+m):=by
 induction m with
 | zero=>
  intro tk i _ hl _
  refine .on ?_ .refl
  have hc:¬(⟨x,K,tk⟩:Thread).count<least:=by
   dsimp only[Thread.count]
   omega
  simp[ways,hf,hc,Inst.size]
 | succ m ih=>
  intro tk i hr hl hmo
  have hw:(⟨x,K,tk⟩:Thread).waits c=some ⟨x,K,some (tk.getD 0+1)⟩:=by
   refine (waits_gap hf).2 ⟨?_,rfl⟩
   dsimp only[Thread.count]
   omega
  have hm:=Move.read hw (by rw[hf];exact hr i le_rfl (by omega))
  simp only[hf]at hm
  have hre:=ih (some (tk.getD 0+1)) (i+1) (fun y hy hy'=>hr y (by omega) (by omega))
   (by rw[getD_some];omega) (by rw[getD_some];omega)
  rw[show i+1+m=i+(m+1) by omega]at hre
  exact .head hm hre
lemma reaches_leaf {n:Node}{q:Inst}(hq:leaf? n=some q)(hf:c.fetch x=q)
 (h:q.spans v i j):Reaches c v ⟨x,K,none⟩ i ⟨x+q.size,K,none⟩ j:=by
 have hpl:∀(hw:(⟨x,K,none⟩:Thread).waits c=some ⟨x,K,none⟩) (_:advance ⟨x,K,none⟩ q=⟨x+q.size,K,none⟩),
  (v i q=.read∧j=i+1∨v i q=.pass∧j=i)→
  Reaches c v ⟨x,K,none⟩ i ⟨x+q.size,K,none⟩ j:=by
  rintro hw ha (⟨hr,rfl⟩|⟨hpa,rfl⟩)
  ·have hm:=Move.read hw (by rw[hf];exact hr)
   rw[hf,ha]at hm
   exact .head hm .refl
  ·have hm:=Move.pass hw (by rw[hf];exact hpa)
   rw[hf,ha]at hm
   exact .head hm .refl
 cases n<;>cases hq
 case gap least most g=>
  obtain⟨hij,h1,h2,hr⟩:=h
  have:=reaches_gap (K:=K) hf (j-i) none i
   (fun y hy hy'=>hr y hy (by omega)) (by simpa using h1) (by simpa using h2)
  rwa[show i+(j-i)=j by omega]at this
 all_goals exact hpl (by simp[waits,hf]) rfl h
section
variable {R:Nat→Nat→Prop}{size:Nat}
lemma reaches_repeatEnd (hf:c.fetch (x+size)=.repeatEnd g least most (-(size:Int)))
 (hb:∀K i j,R i j→Reaches c v ⟨x,K,none⟩ i ⟨x+size,K,none⟩ j)(k:Nat):
 ∀n i j,least≤n+1+k→n+1+k ≤ max (n+1) (max least most)→Times R k i j→
  Reaches c v ⟨x+size,n::K,none⟩ i ⟨x+size+9,K,none⟩ j:=by
 induction k with
 | zero=>
  rintro n i j hl - rfl
  refine .on ?_ .refl
  have hdo:¬n+1<least:=by omega
  simp[ways,hf,Inst.size,hdo]
 | succ k ih=>
  rintro n i j hl hms ⟨m,hm,hk⟩
  refine .on (u:=⟨x,(n+1)::K,none⟩) ?_ ((hb _ _ _ hm).trans ?_)
  ·have hmo:n+1<least∨n+1 < most:=by omega
   have ht:c.target (x+size) (-(size:Int))=x:=c.target_eq (by omega)
   simp[ways,hf,ht,hmo]
  ·exact ih (n+1) m j (by omega) (by omega) hk
lemma reaches_loop (hst:c.fetch x=.repeatStart g least most (size+18))
 (hen:c.fetch (x+9+size)=.repeatEnd g least most (-(size:Int)))
 (hb:∀K i j,R i j→Reaches c v ⟨x+9,K,none⟩ i ⟨x+9+size,K,none⟩ j)
 (h:Rounds least most R i j):Reaches c v ⟨x,K,none⟩ i ⟨x+(size+18),K,none⟩ j:=by
 obtain⟨n,hl,hmo,hn⟩:=h
 cases n with
 | zero=>
  cases hn
  refine .on ?_ .refl
  have hz:least=0:=by omega
  have ht:c.target x ((size:Int)+18)=x+(size+18):=c.target_eq (by omega)
  simp[ways,hst,ht,hz]
 | succ n=>
  obtain⟨m,hm,hn⟩:=hn
  refine .on (u:=⟨x+9,0::K,none⟩) (by simp[ways,hst,Inst.size]) ?_
  have:=reaches_repeatEnd (K:=K) hen hb n 0 m j (by omega) (by omega) hn
  rw[show x+9+size+9=x+(size+18) by omega]at this
  exact (hb _ _ _ hm).trans this
end
lemma reaches_crossing:Crossing c v fun t s L=>∀i j,L i j→Reaches c v t i s j where
 refl _ _ _ h:=h ▸ .refl
 trans h h' i j:=fun⟨k,hk,hk'⟩=>(h i k hk).trans (h' k j hk')
 outside _ _ _:=False.elim
 leaf hq hf _ _:=reaches_leaf hq hf
 fork h h1 h2 i j:=by
  rintro (hL|hL)
  ·exact .on ((h.ways _).2 (.inl rfl)) (h1 i j hL)
  ·exact .on ((h.ways _).2 (.inr rfl)) (h2 i j hL)
 turn h hrd i j hL:=by
  induction hL using ReflTransGen.head_induction_on with
  | refl=>exact .on ((h.ways _).2 (.inr rfl)) .refl
  | head hk _ ih=>exact .on ((h.ways _).2 (.inl rfl)) ((hrd _ _ hk).trans ih)
 loop hst hen hb _ _:=reaches_loop hst hen hb
end
/-- The code in which each test is the end of a match. -/
def Code.cut (c:Code):Code:=⟨c.slots.map fun q=>if q.isTest then .accept else q⟩
lemma Code.fetch_cut (c:Code)(x:Nat):c.cut.fetch x=if (c.fetch x).isTest then .accept else c.fetch x:=by
 rw[fetch_eq,fetch_eq,cut,Array.getElem?_map]
 cases c.slots[x]?<;>rfl
lemma Walk.eq_of_accept (hv:Proper v){n:Nat}(h:Walk c v n t i u j)(ht:c.fetch t.address=.accept):u=t∧j=i:=by
 cases h with
 | refl=>exact⟨rfl,rfl⟩
 | step hm _=>exact absurd ht (hm.fetch_ne_accept hv)
lemma Move.cut (h:Move c v t i u j)(ht:¬(c.fetch t.address).isTest):Move c.cut v t i u j:=by
 have hf:c.cut.fetch t.address=c.fetch t.address:=by rw[fetch_cut,if_neg ht]
 have hta:c.cut.target=c.target:=by
  unfold target
  simp[Code.cut]
 cases h with
 | on hu=>exact .on (by simpa only[ways,hf,hta]using hu)
 | read hw hr=>
  rw[←hf]at hr⊢
  exact .read (by simpa only[waits,hf]using hw) hr
 | pass hw hp=>
  rw[←hf]at hp⊢
  exact .pass (by simpa only[waits,hf]using hw) hp
/-- Up to the first test the code that is cut there does the same. -/
lemma Walk.cut {n:Nat}(h:Walk c v n t i u j)(hu:(c.fetch u.address).isTest):
 ∃m w k,Walk c.cut v m t i w k∧(c.fetch w.address).isTest:=by
 induction h with
 | refl=>exact⟨0,_,_,.refl,hu⟩
 | @step _ t _ _ i _ _ hm _ ih=>
  by_cases ht:(c.fetch t.address).isTest
  ·exact⟨0,t,i,.refl,ht⟩
  ·obtain⟨m,w,k,hw,hwt⟩:=ih hu
   exact⟨m+1,w,k,.step (hm.cut ht) hw,hwt⟩
namespace Pattern.Stands
variable {p:Pattern}{back:Bool}{a:Nat}{L:Nat→Nat→Prop}
section
variable (hp:p.Stands back a c)(hv:Proper v)
include hp hv
lemma not_isTest (hw:p.root.weight=0)(he:p.root.Entry v back a x L)(h:Reaches c v (start x) i t j):
 ¬(c.fetch t.address).isTest:=by
 intro ht
 obtain⟨n,h⟩:=h
 obtain⟨m,w,k,h,hwt⟩:=h.cut ht
 have hla:p.root.Laid c.cut back a:=hp.laid.congr _ _ fun x _ _ hx=>by simp[fetch_cut,hx hw]
 have hac:c.cut.fetch (a+p.root.codeSize)=.accept:=by rw[fetch_cut,hp.accept];rfl
 obtain⟨_,-,_,-,h⟩:=((leads_crossing hv).of_node p.root a x L hla he [] m m le_rfl i w k h).resolve_left
  (absurd (by rw[fetch_cut,if_pos hwt]))
 obtain⟨rfl,-⟩:=h.eq_of_accept hv hac
 rw[hp.accept]at hwt
 cases hwt
lemma reaches_accept (he:p.root.Entry v back a x L)(i j:Nat):
 (∃t,Reaches c v (start x) i t j∧c.fetch t.address=.accept)↔L i j:=by
 constructor
 ·rintro⟨t,⟨n,hw⟩,ht⟩
  obtain⟨m,-,k,hk,hw⟩:=
   ((leads_crossing hv).of_node p.root a x L hp.laid he [] n n le_rfl i t j hw).resolve_left (absurd ht)
  obtain⟨-,rfl⟩:=hw.eq_of_accept hv hp.accept
  exact hk
 ·intro h
  exact⟨_,reaches_crossing.of_node p.root a x L hp.laid he [] i j h,hp.accept⟩
lemma solo (hst:p.root.steady back)(he:p.root.Entry v back a x L)
 (h:Reaches c v (start x) i t j):t.Solo c:=by
 have hn:=Node.neat p.root a hp.laid hst
 obtain⟨k,hwa⟩:=h
 obtain⟨t0,l,D,hD,ht⟩:=Node.Roams.walk hv hn hp.accept hwa (hn.roams (he.spot []))
 have ho:∀u,Onward c t u→u∈D∨u=⟨a+p.root.codeSize,[],none⟩:=by
  intro u hu
  induction hu with
  | refl=>exact ht
  | @tail u w _ hw ih=>
   rcases ih with hu|rfl
   ·exact (hD.closed u hu w hw).imp_right And.right
   ·simp[ways,hp.accept]at hw
 have hbr:∀u,Onward c t u→u.Branches c→u∈D:=by
  intro u hu hb
  refine (ho u hu).resolve_right ?_
  rintro rfl
  rw[Branches,branch?,hp.accept]at hb
  cases hb
 intro u u' hu hu' hb hs
 have hb':u'.Branches c:=by rwa[Branches,←hs]
 obtain⟨hlo,hhi⟩:=hD.branch_place (hbr u hu hb) hb
 obtain⟨hlo',hhi'⟩:=hD.branch_place (hbr u' hu' hb') hb'
 obtain⟨id,hid⟩:=isSome_iff_exists.1 hb
 obtain⟨f,d,hf⟩:=branch?_eq_some.1 hid
 obtain⟨f',d',hf'⟩:=branch?_eq_some.1 (hs▸hid)
 exact hD.single u (hbr u hu hb) u' (hbr u' hu' hb') hb (hp.branch _ _ _ _ _ _ _ hlo hhi hlo' hhi' hf hf')
end
section
variable {f:RunFlags}{inp:Input}
lemma firm (hp:p.Stands back a c)(hw:p.root.weight=0)(he:p.root.Entry (look f inp) back a x L):
 Firm c f inp x:=by
 rintro i w ⟨_,u,-,hu,hwa⟩ hpa
 rw[waits_address hwa]at hpa
 exact absurd (isTest_of_pass hpa) (hp.not_isTest (proper_look f inp) hw he hu)
lemma steady (hp:p.Stands back a c)(hs:p.root.steady back)
 (he:p.root.Entry (look f inp) back a x L)(hfi:Firm c f inp x):Steady c f inp x:=
 ⟨fun _ _ _ _ h=>hp.solo (proper_look f inp) hs he h,hfi⟩
section
variable (hp:p.Stands back a c)(he:p.root.Entry (look f inp) back a x L)
include hp he
lemma found_iff (r:Nat):Found c f inp x r↔∃i j,Starts f inp i∧L i j∧r=j*width f:=by
 constructor
 ·rintro⟨i,j,u,hi,hu,ha,rfl⟩
  exact⟨i,j,hi,(hp.reaches_accept (proper_look f inp) he i j).1 ⟨u,hu,ha⟩,rfl⟩
 ·rintro⟨i,j,hi,hL,rfl⟩
  obtain⟨u,hu,ha⟩:=(hp.reaches_accept (proper_look f inp) he i j).2 hL
  exact⟨i,j,u,hi,hu,ha,rfl⟩
lemma mem_run_iff (hs:Steady c f inp x)(hok:(run c x f inp).result=.ok ())(hex:f.exhaustive)(r:Nat):
 r∈(run c x f inp).lengths↔∃i j,Starts f inp i∧L i j∧r=j*width f:=by
 rw[←hp.found_iff he]
 refine⟨found_of_mem_run hs.firm,?_⟩
 rintro⟨i,j,u,hi,hu,ha,rfl⟩
 rcases reported_of_run hs hok hi hu ha with h|⟨h,-⟩
 ·exact h
 ·rw[hex]at h
  cases h
lemma run_ne_empty_iff (hs:Steady c f inp x)(hok:(run c x f inp).result=.ok ()):
 (run c x f inp).lengths≠#[]↔∃i j,Starts f inp i∧L i j:=by
 constructor
 ·intro h
  obtain⟨r,hr⟩:=exists_mem_of_ne_empty _ h
  obtain⟨i,j,hi,hL,-⟩:=(hp.found_iff he r).1 (found_of_mem_run hs.firm hr)
  exact⟨i,j,hi,hL⟩
 rintro⟨i,j,hi,hL⟩
 obtain⟨u,hu,ha⟩:=(hp.reaches_accept (proper_look f inp) he i j).2 hL
 rcases reported_of_run hs hok hi hu ha with h|⟨-,h⟩
 ·intro hn
  rw[hn]at h
  exact not_mem_empty _ h
 ·exact h
end
end
end Pattern.Stands
def Pattern.code (p:Pattern)(back:Bool):Code:=
 match p.emit back .empty #[] with
 | .ok r=>r.1
 | .error _=>.empty
end PatternScan.Regex