import PatternScan.Proofs.Regex.Anchor
import PatternScan.Proofs.Regex.Lengths
import PatternScan.Proofs.Regex.Pool
import PatternScan.Regex.Parser
/-! A run of the code of a tame pattern comes to an end on every input: with enough steps it always has
the same outcome. -/
open List PatternScan.Regex.Thread
namespace PatternScan.Regex
open Thread (expand distinct)
open Machine
open Relation (ReflTransGen)
variable {i:Inst}{t:Thread}{α:Type}{s:State}{c:Code}{back:Bool}{f:RunFlags}{v:View}{r b entry:Nat}
lemma blocked_of_read (h:verdict f v i=.read):v.blocked=false:=by
 rcases verdict_cases f v i with⟨ok,hv⟩|⟨ok,hv⟩|rfl
 ·grind
 ·rw[hv]at h
  split at h<;>cases h
 ·cases h
def Ready (c:Code)(back:Bool)(w:Thread)(r:Nat):Prop:=
 ∃u,Sits c back u r∧u.waits c=some w
lemma Sits.onward {u:Thread}(h:Sits c back t r)(hu:Onward c t u):Sits c back u r:=by
 induction hu with
 | refl=>exact h
 | tail _ hu ih=>exact ih.moves.on _ hu
lemma Sits.becomes {w:Thread}(h:Sits c back t r)(hw:Becomes c t w):Ready c back w r:=by
 obtain⟨u,hu,hw⟩:=hw
 exact⟨u,h.onward hu,hw⟩
lemma Sits.expand_settles {t:Thread}{r:Nat}(h:Sits c back t r)(V:List Nat){p:Pool}(hp:p.Sound):
 ∃X,X≠.error .endless∧∃N,∀n≥N,expand c n t V p=X:=
 Thread.expand_settles p.room (untaken c V) t h.moves.calm
  (fun _ hu=>(h.onward hu).moves.calm) V p hp le_rfl le_rfl
lemma Ready.advance {w:Thread}{r:Nat}(h:Ready c back w r)
 (hv:verdict f v (c.fetch w.address)=.read∨verdict f v (c.fetch w.address)=.pass):
 ∃s,Sits c back (advance w (c.fetch w.address)) s∧
  (verdict f v (c.fetch w.address)=.pass→s<r):=by
 obtain⟨u,hu,hw⟩:=h
 rw[waits_address hw]at hv⊢
 rcases hu.moves.past w hw with ha|hf|⟨s,hs,hlt⟩
 ·rw[ha]at hv
  exact absurd hv (by rintro (h|h)<;>cases h)
 ·rw[hf]at hv
  exact absurd hv (by rintro (h|h)<;>cases h)
 ·exact⟨s,hs,fun hp=>hlt (isTest_of_pass hp)⟩
structure Cleared (c:Code)(back:Bool)(v:View)(b:Nat)(done:List Thread)
 (o:Except Fault State×Array Nat):Prop where
 ends:o.1≠.error .endless
 ready:∀s,o.1=.ok s→∀w∈s.threads,∃r,Ready c back w r
 blocked:v.blocked=true→∀s,o.1=.ok s→∀w∈s.threads,w∈done∨∃r<b,Ready c back w r
def Comes {α:Type}(F:Allowance→Nat→α)(o:α):Prop:=
 ∃N,∀al n,N≤al.expand→N≤al.sweep→N≤n→F al n=o
lemma Comes.const (o:α):Comes (fun _ _=>o) o:=⟨0,fun _ _ _ _ _=>rfl⟩
lemma Comes.succ {F G:Allowance→Nat→α}{o:α}(h:Comes G o)(N:Nat)
 (heq:∀al n,N≤al.expand→N≤al.sweep→F al (n+1)=G al n):Comes F o:=by
 obtain⟨M,hM⟩:=h
 refine⟨max N (M+1),fun al n ha hs hn=>?_⟩
 obtain⟨k,rfl⟩:∃k,n=k+1:=⟨n-1,by omega⟩
 rw[heq al k (by omega) (by omega),hM al k (by omega) (by omega) (by omega)]
def Clears (c:Code)(back:Bool)(f:RunFlags)(v:View)(b:Nat)(ts:List Thread):Prop:=
 ∀done pool lengths,pool.Sound→(∀w∈done,∃r,Ready c back w r)→∃o,Cleared c back v b done o∧
   Comes (fun allowed fuel=>sweep allowed c f v fuel ts done pool lengths) o
lemma Cleared.stop {d:List Thread}(p:Pool)(l:Array Nat)
 (hdo:∀w∈d,∃r,Ready c back w r):
 Cleared c back v b d (.ok ⟨d.reverse,p,l⟩,l) where
 ends:=nofun
 ready:=by
  rintro _ ⟨⟩ w hw
  exact hdo w (mem_reverse.1 hw)
 blocked:=by
  rintro _ _ ⟨⟩ w hw
  exact .inl (mem_reverse.1 hw)
lemma Cleared.error {d:List Thread}(l:Array Nat){e:Fault}
 (h:(Except.error e:Except Fault Expansion)≠.error .endless):
 Cleared c back v b d (.error e,l):=by
 exact⟨by simpa using h,nofun,fun _=>nofun⟩
lemma clears_nil:Clears c back f v b []:=by
 intro d p l _ hdo
 exact⟨_,.stop p l hdo,0,fun _ fl _ _ _=>by cases fl<;>rfl⟩
lemma ready_append {us d:List Thread}(hu:∀w∈us,Ready c back w r)(hd:∀w∈d,∃r,Ready c back w r):
 ∀w∈us.reverse++d,∃r,Ready c back w r:=
 forall_mem_append.2 ⟨fun w hw=>⟨r,hu w (mem_reverse.1 hw)⟩,hd⟩

/-- The induction is on the rank of the thread in front: the threads that it becomes at the same position have a
smaller one. -/
lemma clears_cons (r:Nat):∀(t:Thread)(ts:List Thread),r≤b→Ready c back t r→
 Clears c back f v b ts→Clears c back f v b (t::ts):=by
 induction r using Nat.strong_induction_on with
 | _ r ih=>
  intro t ts hm ht hts d p l hp hdo
  cases hv:verdict f v (c.fetch t.address) with
  | die=>
   obtain⟨o,ho,hc⟩:=hts d _ l (hp.release 1) hdo
   refine⟨o,ho,hc.succ 0 fun a fl _ _=>?_⟩
   rw[sweep,hv]
  | accept=>
   by_cases hex:f.exhaustive
   ·obtain⟨o,ho,hc⟩:=hts d _ (l.push v.read) (hp.release 1) hdo
    refine⟨o,ho,hc.succ 0 fun a fl _ _=>?_⟩
    simp[sweep,hv,hex]
   ·refine⟨_,.stop (p.release (ts.length+1)) (l.push v.read) hdo,(Comes.const _).succ 0 fun a fl _ _=>?_⟩
    simp[sweep,hv,hex]
  | pass=>
   obtain⟨s,hs,hlt⟩:=ht.advance (.inr hv)
   obtain⟨X,hX,N,hN⟩:=hs.expand_settles [] hp
   cases X with
   | error e=>
    refine⟨_,.error l hX,(Comes.const _).succ N fun a fl ha _=>?_⟩
    simp[sweep,hv,hN _ ha]
   | ok x=>
    have hlt:=hlt hv
    have hx:=hN N le_rfl
    have hpo:=(expand_balanced _ _ _ _ _ hp hx).sound
    have hr:∀w∈x.threads,Ready c back w s:=
     fun w hw=>hs.becomes (becomes_of_mem_expand hx hw)
    have hal:∀us,us⊆x.threads→Clears c back f v b (us++ts):=by
     intro us hus
     induction us with
     | nil=>exact hts
     | cons u _ ihus=>
      obtain⟨hu,hus⟩:=cons_subset.1 hus
      exact ih s hlt u _ (hlt.le.trans hm) (hr u hu) (ihus hus)
    by_cases hk:x.kept
    ·obtain⟨o,ho,hc⟩:=hal _ (Subset.refl _) d x.pool l hpo hdo
     refine⟨o,ho,hc.succ N fun a fl ha _=>?_⟩
     simp[sweep,hv,hN _ ha,hk]
    cases hpl:x.place p.idle with
    | none=>
     refine⟨_,Cleared.error l (e:=.lost) (by simp),(Comes.const _).succ N fun a fl ha _=>?_⟩
     simp[sweep,hv,hN _ ha,hk,hpl]
    | some k=>
     have hta:∀w∈x.threads.take k,Ready c back w s:=fun w hw=>hr w (mem_of_mem_take hw)
     obtain⟨o,ho,hc⟩:=hal _ (drop_subset k _) _ x.pool l hpo (ready_append hta hdo)
     refine⟨o,⟨ho.ends,ho.ready,fun hb s' hs' w hw=>?_⟩,hc.succ N fun a fl ha _=>?_⟩
     ·rcases ho.blocked hb s' hs' w hw with hw|hw
      ·rcases mem_append.1 hw with hw|hw
       ·exact .inr ⟨s,hlt.trans_le hm,hta w (mem_reverse.1 hw)⟩
       ·exact .inl hw
      ·exact .inr hw
     ·simp[sweep,hv,hN _ ha,hk,hpl]
  | read=>
   obtain⟨s,hs,-⟩:=ht.advance (.inl hv)
   obtain⟨X,hX,N,hN⟩:=hs.expand_settles [] hp
   cases X with
   | error e=>
    refine⟨_,.error l hX,(Comes.const _).succ N fun a fl ha _=>?_⟩
    simp[sweep,hv,hN _ ha]
   | ok x=>
    have hx:=hN N le_rfl
    obtain⟨o,ho,hc⟩:=hts _ x.pool l (expand_balanced _ _ _ _ _ hp hx).sound
     (ready_append (fun w hw=>hs.becomes (becomes_of_mem_expand hx hw)) hdo)
    refine⟨o,⟨ho.ends,ho.ready,fun hb=>?_⟩,hc.succ N fun a fl ha _=>?_⟩
    ·rw[blocked_of_read hv]at hb
     cases hb
    ·rw[sweep,hv]
     rw[hN _ ha]
lemma clears (ts:List Thread)(h:∀t∈ts,∃r≤b,Ready c back t r):Clears c back f v b ts:=by
 induction ts with
 | nil=>exact clears_nil
 | cons t ts ih=>
  obtain⟨⟨r,hr,ht⟩,hts⟩:=forall_mem_cons.1 h
  exact clears_cons r t ts hr ht (ih hts)
structure Ordered (c:Code)(back:Bool)(s:State):Prop where
 lends:s.pool.Lends s.threads.length
 ready:∀w∈s.threads,∃r,Ready c back w r
lemma exists_rank (ts:List Thread)(h:∀w∈ts,∃r,Ready c back w r):∃b,∀w∈ts,∃r≤b,Ready c back w r:=by
 induction ts with
 | nil=>exact⟨0,by simp⟩
 | cons t ts ih=>
  obtain⟨⟨r,ht⟩,h⟩:=forall_mem_cons.1 h
  obtain⟨b,hm⟩:=ih h
  refine⟨max r b,forall_mem_cons.2 ⟨⟨r,le_max_left _ _,ht⟩,fun w hw=>?_⟩⟩
  obtain⟨r',hr,hw⟩:=hm w hw
  exact⟨r',hr.trans (le_max_right _ _),hw⟩
lemma spawn_settles (he:Sits c back (start entry) r)
 (hs:Ordered c back s):∃X,X≠.error .endless∧(∀s',X=.ok s'→Ordered c back s')∧
  ∃N,∀a:Allowance,N≤a.expand→spawn a c entry s=X:=by
 have hse:Settles fun n=>spawn ⟨n,0⟩ c entry s:=by
  refine Settles.bind (.const (take_ne_endless s.pool)) fun p _ hp=>?_
  exact Settles.bind (he.expand_settles [] (take_eq_ok (Pool.lends_iff.1 hs.lends).1 hp).1) fun x _ _=>.ok _
 obtain⟨X,hX,N,hN⟩:=hse
 refine⟨X,hX,fun s' hs'=>?_,N,fun a ha=>hN _ ha⟩
 subst hs'
 have hsp:=hN N le_rfl
 refine⟨hs.lends.spawn hsp,fun w hw=>?_⟩
 obtain⟨p,-,hsp⟩:=bind_eq_ok.1 hsp
 obtain⟨x,hx,hsp⟩:=bind_eq_ok.1 hsp
 cases hsp
 rcases mem_append.1 hw with hw|hw
 ·exact hs.ready w hw
 ·exact⟨r,he.becomes (becomes_of_mem_expand hx hw)⟩

/-- With enough steps and rounds the run has one outcome from a state on. -/
def Lasts (c:Code)(f:RunFlags)(inp:Input)(entry read:Nat)(s:State):Prop:=
 ∃R:Run,R.result≠.error .endless∧Comes (fun al n=>rounds al c f inp entry n read s) R
section
variable {inp:Input}{read:Nat}
lemma lasts_nil (h:s.threads.isEmpty):Lasts c f inp entry read s:=
 ⟨⟨s.lengths,.ok ()⟩,by simp,0,fun al n _ _ _=>by cases n<;>simp[rounds,h]⟩
variable (hen:Sits c back (start entry) r)
include hen
lemma lasts_round (hs:Ordered c back s)(hm:∀w∈s.threads,∃r≤b,Ready c back w r)
 (hon:∀s',Ordered c back s'→(reach f inp ≤ read→∀w∈s'.threads,∃r<b,Ready c back w r)→
  Lasts c f inp entry (read+width f) s'):Lasts c f inp entry read s:=by
 by_cases hni:s.threads.isEmpty
 ·exact lasts_nil hni
 have hdi:∀t∈(distinct s.threads [] s.pool).1,∃r≤b,Ready c back t r:=by
  intro t ht
  exact hm t (((mem_distinct s.threads [] s.pool).1 ht).resolve_right not_mem_nil)
 have hd:=Pool.Lends.distinct (k:=[]) hs.lends
 obtain⟨⟨X,l⟩,ho,N,hN⟩:=clears (v:=view f inp read) _ hdi [] _ s.lengths (Pool.lends_iff.1 hd).1 (by simp)
 dsimp only at hN
 cases X with
 | error e=>
  refine⟨⟨l,.error e⟩,by simpa using ho.ends,(Comes.const _).succ N fun al n ha hsw=>?_⟩
  rw[rounds,if_neg hni]
  dsimp only
  rw[hN al _ ha hsw hsw]
 | ok s'=>
  have hrd (al:Allowance) (ha:N≤al.expand) (hsw:N≤al.sweep)(n:Nat):=
   rounds_succ entry n hni (hN al _ ha hsw hsw)
  have hs':Ordered c back s':=
   ⟨hd.sweep (d:=[]) (congrArg Prod.fst (hN ⟨N,N⟩ N le_rfl le_rfl le_rfl)),ho.ready s' rfl⟩
  by_cases hse:(f.search&&read+width f<reach f inp)
  ·have hlt:read+width f<reach f inp:=by
    rw[Bool.and_eq_true,decide_eq_true_eq]at hse
    exact hse.2
   obtain⟨Y,hY,hYs,M,hM⟩:=spawn_settles hen hs'
   cases Y with
   | error e=>
    refine⟨⟨l,.error e⟩,by simpa using hY,(Comes.const _).succ (max N M) fun al n ha hsw=>?_⟩
    rw[hrd al (by omega) (by omega),if_pos hse,hM al (by omega)]
   | ok s''=>
    obtain⟨R,hR,hK⟩:=hon s'' (hYs s'' rfl) (by omega)
    refine⟨R,hR,hK.succ (max N M) fun al n ha hsw=>?_⟩
    rw[hrd al (by omega) (by omega),if_pos hse,hM al (by omega)]
  ·obtain⟨R,hR,hK⟩:=hon s' hs' fun hle w hw=>by
    refine (ho.blocked ?_ s' rfl w hw).resolve_left not_mem_nil
    rw[view,Bool.or_eq_true]
    exact .inl (decide_eq_true hle)
   refine⟨R,hR,hK.succ N fun al n ha hsw=>?_⟩
   rw[hrd al ha hsw,if_neg hse]

/-- Behind the input the ranks of the threads fall from round to round. -/
lemma lasts_behind (b:Nat):∀read s,Ordered c back s→ reach f inp ≤ read→
 (∀w∈s.threads,∃r<b,Ready c back w r)→Lasts c f inp entry read s:=by
 induction b with
 | zero=>
  intro read s _ _ hm
  refine lasts_nil (isEmpty_iff.2 (eq_nil_iff_forall_not_mem.2 fun w hw=>?_))
  obtain⟨_,hr,-⟩:=hm w hw
  omega
 | succ b ih=>
  intro read s hs hle hm
  exact lasts_round hen hs (fun w hw=>(hm w hw).imp fun _ h=>⟨Nat.le_of_lt_succ h.1,h.2⟩)
   fun s' hs' hr=>ih _ s' hs' (hle.trans (Nat.le_add_right _ _)) (hr hle)
lemma lasts (d:Nat):∀read s,Ordered c back s→ reach f inp ≤ read+d→Lasts c f inp entry read s:=by
 induction d with
 | zero=>
  intro read s hs hle
  obtain⟨b,hm⟩:=exists_rank _ hs.ready
  exact lasts_behind hen (b+1) read s hs hle fun w hw=>(hm w hw).imp fun _ h=>⟨Nat.lt_succ_of_le h.1,h.2⟩
 | succ d ih=>
  intro read s hs hle
  obtain⟨b,hm⟩:=exists_rank _ hs.ready
  have hw:=width_pos f
  exact lasts_round hen hs hm fun s' hs' _=>ih _ s' hs' (by omega)
lemma runWithin_settles (inp:Input):∃R:Run,R.result≠.error .endless∧∃N,∀a:Allowance,
  N≤a.expand→N≤a.sweep → runWithin a c entry f inp=R:=by
 have hem:Ordered c back ⟨[],Pool.empty,#[]⟩:=⟨⟨rfl,zero_le⟩,nofun⟩
 obtain⟨X,hX,hXs,N,hN⟩:=spawn_settles hen hem
 cases X with
 | error e=>
  refine⟨⟨#[],.error e⟩,by simpa using hX,N,fun a ha _=>?_⟩
  rw[runWithin,hN a ha]
 | ok s=>
  obtain⟨R,hR,K,hK⟩:=lasts (f:=f) hen (reach f inp) 0 s (hXs s rfl) (Nat.le_add_left _ _)
  refine⟨R,hR,max N K,fun a ha hs=>?_⟩
  rw[runWithin,hN a (by omega)]
  exact hK a _ (by omega) (by omega) (by omega)
end
lemma Node.entry_of_seat (v:Nat→Inst→Verdict)(n:Node):∀an a k x,
 n.seat back an a k=some x→∃L,n.Entry v back a x L:=by
 induction n using induction
  (Q:=fun ns=>∀an a k x,seatList back ns an a k=some x→
   ∃L,EntryList v back ns a x L) with
 | leaf n hn=>
  intro an a k x h
  rw[hn.seat_eq]at h
  split at h
  ·cases h
   split
   ·exact⟨_,.stop a hn⟩
   ·exact⟨_,.start n a⟩
  ·cases h
 | cat _ ih=>
  intro an a k x h
  obtain⟨L,hL⟩:=ih an a k x h
  exact⟨L,.cat hL⟩
 | alt l r ihl ihr=>
  intro an a k x h
  rcases Option.or_eq_some_iff.mp h with h|⟨-,h⟩
  ·obtain⟨L,hL⟩:=ihr _ _ k x h
   exact⟨L,.right hL⟩
  ·obtain⟨L,hL⟩:=ihl _ _ k x h
   exact⟨L,.left hL⟩
 | star g e ih=>
  intro an a k x h
  obtain⟨L,hL⟩:=ih _ _ k x h
  exact⟨_,.star hL⟩
 | plus g e ih=>
  intro an a k x h
  obtain⟨L,hL⟩:=ih _ _ k x h
  exact⟨_,.plus hL⟩
 | range _ _ g e ih=>
  intro an a k x h
  rcases Option.or_eq_some_iff.mp h with h|⟨-,h⟩
  ·split at h
   ·rename_i hep
    obtain⟨L,hL⟩:=ih _ _ k x h
    exact⟨L,.epilog ((Bool.and_eq_true _ _).mp hep).1 hL⟩
   ·cases h
  ·split at h
   ·rename_i hlo
    obtain⟨L,hL⟩:=ih _ _ k x h
    exact⟨_,.prolog hlo hL⟩
   ·cases h
 | nil _ a k x h=>cases h
 | cons n _ ihn ihns _ a k x h=>
  cases back with
  | false=>
   rcases Option.or_eq_some_iff.mp h with h|⟨-,h⟩
   ·obtain⟨L,hL⟩:=ihns _ _ k x h
    exact⟨L,.tail_forwards hL⟩
   ·obtain⟨L,hL⟩:=ihn _ _ k x h
    exact⟨_,.head_forwards hL⟩
  | true=>
   rcases Option.or_eq_some_iff.mp h with h|⟨-,h⟩
   ·obtain⟨L,hL⟩:=ihn _ _ k x h
    exact⟨L,.head_backwards hL⟩
   ·obtain⟨L,hL⟩:=ihns _ _ k x h
    exact⟨_,.tail_backwards hL⟩

/-- Every run of the code of a tame pattern, from its start or from an anchor, ends on every input: from some number
of steps on it has one outcome, and is not cut short. The outcome is success or an error code if no thread that passes
a test is given back. -/
theorem runWithin_ends {p:Pattern} {code code':Code} {entries es:Array Entry}
 (hemit:p.emit back code entries = .ok (code',es)) (htame:p.root.tame=true)
 (hc:∀ x < code'.size,c.fetch x = code'.fetch x) {x:Nat}
 (hx:x=code.size ∨ ∃ k,p.root.seat back 0 code.size k = some x) (f:RunFlags)
 (inp:Input) : ∃ R:Run,R.result ≠ .error .endless ∧
  (Firm c f inp x → R.result = .ok () ∨ ∃ e,R.result = .error (.code e)) ∧
  ∃ N,∀ allowed:Allowance,N ≤ allowed.expand → N ≤ allowed.sweep → runWithin allowed c x f inp = R := by
 obtain⟨hstd,hsize,-,-⟩:=Pattern.emit_stands hemit
 have hstd:=hstd.congr fun x _ hx=>hc x (by omega)
 obtain⟨L,hent⟩:∃L,p.root.Entry (look f inp) back code.size x L:=by
  rcases hx with rfl|⟨k,hk⟩
  ·exact⟨_,.start _ _⟩
  ·exact p.root.entry_of_seat _ _ _ k x hk
 obtain⟨s,hs⟩:=p.root.entry_sits _ _ _ [] 0 hent hstd.laid htame (.accept hstd.accept)
 obtain⟨R,hR,N,hN⟩:=runWithin_settles hs inp
 refine⟨R,hR,fun hfirm=>?_,N,hN⟩
 have hlost:=(runWithin_found hfirm ⟨N,N⟩).2
 rw[hN ⟨N,N⟩ le_rfl le_rfl]at hlost
 rcases hres:R.result with (e|_|_)|_
 ·exact .inr ⟨e,rfl⟩
 ·exact absurd hres hR
 ·exact absurd hres hlost
 ·exact .inl rfl
def nested:Pattern:=
 ⟨.cat [.plus true (.alt (.cat [.boundary,.literal 97 true]) (.cat [.star false (.literal 98 true)])),.stop],⟨false,false,true,true⟩⟩
theorem nested_runWithin_ends : nested.root.tame=true∧∃ R:Run,(R.result=.ok ()∨∃ e,R.result=.error (.code e))∧
 ∃ N,∀ allowed:Allowance,N ≤ allowed.expand → N ≤ allowed.sweep →
  runWithin allowed (nested.code false) 0 ⟨false,true,true,true,true,true⟩
   ⟨⟨#[98,0,97,0,98,0]⟩,0⟩=R:=by
 have hemit:nested.emit false .empty #[]=.ok (nested.code false,#[]):=rfl
 have hfirm:(nested.code false).Firm:=Code.firm_of_still (by decide)
 obtain⟨R,-,hR,N,hN⟩:=runWithin_ends hemit rfl (fun _ _=>rfl) (.inl rfl) _ _
 exact⟨rfl,R,hR hfirm.run,N,hN⟩
def lazyBoundary:Pattern:=⟨.cat [.star false (.cat [.boundary])],⟨false,false,false,true⟩⟩
def lazyBoundaryCode:Code:=lazyBoundary.code false
lemma lazyBoundary_expand (n:Nat):
 let X:=expand lazyBoundaryCode n (advance ⟨4,[],none⟩ (lazyBoundaryCode.fetch 4)) [] ⟨2,1⟩
 X=.error .endless∨X=.ok ⟨[⟨8,[],none⟩,⟨4,[],none⟩],[0],⟨2,0⟩,true,[.take,.wait,.wait]⟩:=
 match n with
 | 0 | 1 | 2=>.inl rfl
 | _+3=>.inr rfl
lemma lazyBoundary_sweep (a:Allowance):∀(fuel:Nat)(lengths:Array Nat),
 (sweep a lazyBoundaryCode (.ofNat 8) (view (.ofNat 8) ⟨⟨#[97]⟩,0⟩ 0) fuel
  [⟨8,[],none⟩,⟨4,[],none⟩] [] ⟨2,0⟩ lengths).1=.error .endless
 | 0,_=>rfl
 | 1,_=>rfl
 | fuel+2,lengths=>by
  have hv:verdict (.ofNat 8) (view (.ofNat 8) ⟨⟨#[97]⟩,0⟩ 0) (lazyBoundaryCode.fetch 4)=.pass:=rfl
  change (sweep a lazyBoundaryCode (.ofNat 8) (view (.ofNat 8) ⟨⟨#[97]⟩,0⟩ 0) (fuel+1)
   [⟨4,[],none⟩] [] ⟨2,1⟩ (lengths.push 0)).1=_
  rw[sweep,hv]
  rcases lazyBoundary_expand a.expand with h|h
  ·rw[h]
  ·rw[h]
   exact lazyBoundary_sweep a fuel (lengths.push 0)

/-- A lazy repetition of a test never comes to an end where the test passes, with any number of
steps. -/
theorem lazyBoundary_endless : read ⟨#[40,92,98,41,42,63]⟩ false=.ok ⟨lazyBoundary,false⟩∧
 lazyBoundary.emit false .empty #[]=.ok (lazyBoundaryCode,#[])∧
 ∀ allowed,(runWithin allowed lazyBoundaryCode 0 (.ofNat 8) ⟨⟨#[97]⟩,0⟩).result =
  .error .endless:=by
 refine⟨by with_unfolding_all rfl,rfl,fun allowed=>?_⟩
 obtain⟨m,k⟩:=allowed
 rcases m with _|_|m
 ·rfl
 ·rfl
 ·have hsweep:=lazyBoundary_sweep ⟨m+2,k⟩ k #[]
  rw[runWithin]
  have hspawn:spawn ⟨m+2,k⟩ lazyBoundaryCode 0 ⟨[],.empty,#[]⟩=
   .ok ⟨[⟨8,[],none⟩,⟨4,[],none⟩],⟨2,0⟩,#[]⟩:=rfl
  rw[hspawn]
  dsimp only
  have hdistn:Thread.distinct [⟨8,[],none⟩,⟨4,[],none⟩] [] ⟨2,0⟩=
   ([⟨8,[],none⟩,⟨4,[],none⟩],⟨2,0⟩):=rfl
  rw[rounds,if_neg (by simp),hdistn]
  dsimp only
  split
  ·rename_i h
   rw[h]at hsweep
   cases hsweep
   rfl
  ·rename_i h
   rw[h]at hsweep
   cases hsweep
end PatternScan.Regex