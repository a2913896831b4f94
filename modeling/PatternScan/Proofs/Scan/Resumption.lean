import PatternScan.Proofs.Scan.Conclusion
import PatternScan.Session
/-! A source may not be ready for a while. The scan then ends, and goes on when it is called again. -/
open List Array
open Bool PatternScan.ResultCode
namespace PatternScan.Scan
variable {i n:Nat}{code:Int}{c:SearchSetting}{S τ:Source}
namespace Source
variable {b:SourceBlock}
/-- The source with nothing held back for later. Codes of failure stay. -/
def ready (s:Source):Source:=
 { s with
   pauses:=fun _=>0
   blocks:=s.blocks.map fun b=>{b with signal:=if b.signal=some notReady then none else b.signal} }

/-- A source in the middle of its first round: it does not feign its end, and holds back nothing that
it has given. -/
structure Good (s:Source):Prop where
 position:s.position ≤ s.blocks.size
 genuine:∀b∈s.blocks,b.signal≠some 0
 passed:∀i<s.position,s.delay i=0
structure Spent (s:Source):Prop where
 position:s.position=s.blocks.size
 code:s.code=0
 passed:∀i ≤ s.blocks.size,s.delay i=0
variable {s:Source}
lemma delay_eq_zero:s.delay i=0↔s.pauses i=0∧∀b,s.blocks[i]?=some b→b.signal=none:=by
 unfold delay
 cases hb:s.blocks[i]? with
 | none=>simp
 | some b=>cases hs:b.signal<;>simp[hs]
lemma patience_lt {s':Source}(hs:s'.blocks.size=s.blocks.size)
 (hle:∀i,s'.delay i ≤ s.delay i){k:Nat}(hk:k ≤ s.blocks.size)
 (hlt:s'.delay k<s.delay k):s'.patience<s.patience:=by
 unfold patience
 rw[hs]
 exact Nat.succ_lt_succ (sum_lt_sum s'.delay s.delay (fun i _=>hle i) ⟨k,mem_range.2 (by omega),hlt⟩)
lemma blocks_ready (s:Source):s.ready.blocks.size=s.blocks.size:=size_map ..
lemma getElem?_ready (hb:s.blocks[i]?=some b):s.ready.blocks[i]? =
  some {b with signal:=if b.signal=some notReady then none else b.signal}:=by
 simp[ready,hb]
def paused (s:Source)(n:Nat):Source:=
 {s with code:=notReady,pauses:=fun i=>if i=s.position then n else s.pauses i}
def signalled (s:Source)(code:Int):Source:=
 { s with
   code:=code
   blocks:=s.blocks.modify s.position fun b=>{b with signal:=none} }
lemma next_paused (h:s.pauses s.position=n+1):s.next=(none,s.paused n):=by
 unfold next
 rw[h]
 rfl
lemma next_end (h:s.pauses s.position=0)(hb:s.blocks[s.position]?=none):s.next=(none,{s with code:=0}):=by
 unfold next
 simp[h,hb]
section
variable (h:s.pauses s.position=0)(hb:s.blocks[s.position]?=some b)
include h hb
lemma next_signalled (hs:b.signal=some code):s.next=(none,s.signalled code):=by
 unfold next
 simp[h,hb,hs,signalled]
lemma next_block (hs:b.signal=none):s.next=(some b,{s with position:=s.position+1,code:=0}):=by
 unfold next
 simp[h,hb,hs]
end
lemma eq_of_next_eq_some {t:Source}(h:s.next=(some b,t)):
 s.position<s.blocks.size∧t={s with position:=s.position+1,code:=0}:=by
 unfold next at h
 grind
lemma size_next (s:Source):s.next.2.blocks.size=s.blocks.size:=by
 unfold next
 grind
lemma delay_paused (h:s.pauses s.position=n+1)(i:Nat):
 (s.paused n).delay i+(if i=s.position then 1 else 0)=s.delay i:=by
 unfold delay paused
 grind
lemma delay_signalled (hb:s.blocks[s.position]?=some b)(hs:b.signal=some code)(i:Nat):
 (s.signalled code).delay i+(if i=s.position then 1 else 0)=s.delay i:=by
 unfold delay signalled
 grind
lemma mem_signalled (hb:b∈(s.signalled code).blocks):b∈s.blocks∨b.signal=none:=by
 obtain⟨i,hi⟩:=Array.mem_iff_getElem?.1 hb
 rw[signalled,Array.getElem?_modify]at hi
 grind
lemma Good.back (h:s.Good)(t:Source)(hp:t.position=s.position)
 (hsi:t.blocks.size=s.blocks.size)(hs:∀b∈t.blocks,b∈s.blocks∨b.signal=none)
 (hde:∀i,t.delay i+(if i=s.position then 1 else 0)=s.delay i):
 t.Good∧t.patience<s.patience:=by
 refine⟨⟨?_,?_,?_⟩,?_⟩
 ·rw[hp,hsi]
  exact h.position
 ·intro b hb
  rcases hs b hb with hb|hb
  ·exact h.genuine b hb
  ·simp[hb]
 ·intro i hi
  have hi':=hde i
  have:=h.passed i (hp▸hi)
  omega
 ·refine patience_lt hsi (fun i=>?_) h.position ?_
  ·have:=hde i
   omega
  grind
lemma ready_signalled (s:Source)(code:Int):(s.signalled code).ready=s.ready.signalled code:=by
 unfold ready signalled
 congr 1
 grind
lemma ready_signalled_notReady (hb:s.blocks[s.position]?=some b)(hs:b.signal=some notReady):
 (s.signalled notReady).ready={s.ready with code:=notReady}:=by
 rw[ready_signalled,signalled]
 congr 1
 refine Array.ext_getElem? fun i=>?_
 rw[Array.getElem?_modify]
 split
 ·next hi=>
  obtain rfl:s.position=i:=hi
  rw[getElem?_ready hb,if_pos hs]
  rfl
 ·rfl
lemma next_cases (h:s.Good):(∃s',s.next=(none,s')∧s'.code=notReady∧s'.Good∧s'.patience<s.patience∧
  s'.ready={s.ready with code:=notReady})∨
 ∃b s',s.next=(b,s')∧s.ready.next=(b,s'.ready)∧s'.code≠notReady∧
  ((∃x,b=some x∧s'.Good∧s'.patience=s.patience)∨b=none∧(s'.code=0→s'.Spent)):=by
 cases hp:s.pauses s.position with
 | succ n=>
  obtain⟨hg,hlt⟩:=h.back (s.paused n) rfl rfl (fun _ hb=>.inl hb) (delay_paused hp)
  exact .inl ⟨_,next_paused hp,rfl,hg,hlt,rfl⟩
 | zero=>
  cases hb:s.blocks[s.position]? with
  | none=>
   have hsi:=getElem?_eq_none_iff.1 hb
   have hpo:=h.position
   have hb':s.ready.blocks[s.ready.position]?=none:=by
    rw[Array.getElem?_eq_none_iff,blocks_ready]
    exact hsi
   refine .inr ⟨none,_,next_end hp hb,next_end rfl hb',nofun,.inr ⟨rfl,fun _=>?_⟩⟩
   refine⟨le_antisymm hpo hsi,rfl,fun i hi=>?_⟩
   rcases lt_or_ge i s.position with hlt|hge
   ·exact h.passed i hlt
   ·obtain rfl:i=s.position:=le_antisymm (hi.trans hsi) hge
    refine delay_eq_zero.2 ⟨hp,fun b hb'=>?_⟩
    exact absurd (hb'.symm.trans hb) nofun
  | some b=>
   cases hs:b.signal with
   | none=>
    have hb':=getElem?_ready hb
    have hlt:=(Array.getElem?_eq_some_iff.1 hb).1
    have heq:({b with signal:=if b.signal=some notReady then none else b.signal}:SourceBlock)=b:=by
     cases b
     simp_all
    rw[heq]at hb'
    refine .inr ⟨some b,_,next_block hp hb hs,next_block rfl hb' hs,nofun,
     .inl ⟨b,rfl,⟨hlt,h.genuine,fun i hi=>?_⟩,rfl⟩⟩
    rcases Nat.lt_succ_iff_lt_or_eq.1 hi with hi|rfl
    ·exact h.passed i hi
    ·refine delay_eq_zero.2 ⟨hp,fun x hx=>?_⟩
     cases hb.symm.trans hx
     exact hs
   | some code=>
    have hgn:=h.genuine b (mem_of_getElem? hb)
    by_cases hc:code=notReady
    ·subst hc
     obtain⟨hg,hlt⟩:=h.back (s.signalled notReady) rfl size_modify
      (fun _=>mem_signalled) (delay_signalled hb hs)
     exact .inl ⟨_,next_signalled hp hb hs,rfl,hg,hlt,ready_signalled_notReady hb hs⟩
    have hb':=getElem?_ready hb
    have hs':(if b.signal=some notReady then none else b.signal)=some code:=by rw[hs,if_neg (by simpa using hc)]
    have hn:=next_signalled rfl hb' hs'
    rw[←ready_signalled]at hn
    refine .inr ⟨none,_,next_signalled hp hb hs,hn,hc,.inr ⟨rfl,fun hz=>?_⟩⟩
    exact absurd (hs.trans (congrArg some hz)) hgn
lemma Spent.rest (h:s.Spent)(n:Nat):∀k ≤ s.blocks.size,s.blocks.size-k<n→
 ∀code,({s with position:=k,code:=code}:Source).rest n=(s.blocks.toList.drop k,s):=by
 induction n with
 | zero=>exact fun k _ hn=>absurd hn (Nat.not_lt_zero _)
 | succ n ih=>
  intro k hk hn code
  obtain⟨hp,hs⟩:=delay_eq_zero.1 (h.passed k hk)
  rw[Source.rest]
  rcases hk.lt_or_eq with hlt|rfl
  ·have hb:s.blocks[k]?=some s.blocks[k]:=getElem?_eq_getElem hlt
   rw[next_block (s:={s with position:=k,code:=code}) hp hb (hs _ hb)]
   dsimp only
   rw[ih (k+1) hlt (by omega) 0]
   rw[drop_eq_getElem_cons (i:=k) (by simpa using hlt)]
   rfl
  ·have hb:s.blocks[s.blocks.size]?=none:=getElem?_eq_none_iff.2 le_rfl
   rw[next_end (s:={s with position:=s.blocks.size,code:=code}) hp hb]
   rw[drop_eq_nil_of_le (by simp),←h.position,←h.code]
lemma Spent.visit (h:s.Spent):s.visit=(s.blocks.toList,s):=
 h.rest (s.blocks.size+1) 0 zero_le (by omega) s.code
lemma Spent.ready (h:s.Spent):s.ready.Spent∧s.ready.blocks=s.blocks:=by
 have hbl:s.ready.blocks=s.blocks:=by
  refine ext_getElem? fun i=>?_
  cases hb:s.blocks[i]? with
  | none=>
   rw[Array.getElem?_eq_none_iff,blocks_ready]
   exact getElem?_eq_none_iff.1 hb
  | some b=>
   have hlt:=(Array.getElem?_eq_some_iff.1 hb).1
   have hs:=(delay_eq_zero.1 (h.passed i hlt.le)).2 b hb
   rw[getElem?_ready hb]
   cases b
   simp_all
 refine⟨⟨?_,h.code,fun i hi=>?_⟩,hbl⟩
 ·rw[hbl]
  exact h.position
 ·rw[hbl]at hi
  refine delay_eq_zero.2 ⟨rfl,fun b hb=>?_⟩
  rw[hbl]at hb
  exact (delay_eq_zero.1 (h.passed i hi)).2 b hb
end Source
/-! ## What was told before -/
namespace Progress
variable {b:Block}
def after (told:Array Event)(blamed:Option Nat)(p:Progress):Progress:=
 {p with events:=told++p.events,culprit:=p.culprit.or blamed}
variable (told:Array Event)(blamed:Option Nat)
lemma verify_after (p:Progress)(r:Automaton.Registration)(o:Nat):
 (p.after told blamed).verify c b r o=(p.verify c b r o).map id (after told blamed):=by
 rw[verify_eq,verify_eq]
 change (if p.skips c (c.set.string r.string) then _ else _)=_
 split
 ·rfl
 ·dsimp only[after]
  split
  ·rfl
  ·split<;>simp[after]
  ·rfl
lemma verifyList_after (i a:Nat):∀(f:Option Nat)(p:Progress),verifyList c b i a f (p.after told blamed)=
  (verifyList c b i a f p).map id (after told blamed):=by
 induction a with
 | zero=>exact fun _ _=>rfl
 | succ a ih=>
  intro f p
  cases f with
  | none=>rfl
  | some n=>
   simp only[verifyList]
   split
   ·rw[verify_after]
    grind
   ·exact ih _ p
lemma read_after (i sl:Nat)(slo:Option Nat)(p:Progress):
 read c b i sl slo (p.after told blamed)=(read c b i sl slo p).map id (Prod.map id (after told blamed)):=by
 fun_induction read c b i sl slo p with
 | case1 i sl _ p _ hlt hn ih=>
  rw[read,if_pos hlt,show c.set.table.lists.getD sl none=none from hn]
  exact ih
 | case2 i sl _ p _ hlt n hn _ _ hp' ih=>
  rw[read,if_pos hlt,show c.set.table.lists.getD sl none=some n from hn]
  rw[verifyList_after,show verifyList c b i c.set.table.pool.size (some n) p=_ from hn▸hp']
  exact ih
 | case3 i sl _ p first hlt n hn _ code _ hne hp'=>
  rw[read,if_pos hlt,show c.set.table.lists.getD sl none=some n from hn]
  rw[verifyList_after,show verifyList c b i c.set.table.pool.size (some n) p=_ from hn▸hp']
  cases code<;>first | rfl | exact absurd rfl hne
 | case4 i _ _ p _ hge _ _ hp'=>
  rw[read,if_neg hge]
  rw[verifyList_after,show verifyList c b i c.set.table.pool.size _ p=_ from hp']
  rfl
lemma search_after (p:Progress):(p.after told blamed).search c b=(p.search c b).map id (after told blamed):=by
 unfold search
 rw[read_after]
 rcases read c b 0 0 none p with⟨code,slow,p'⟩
 cases code with
 | success=>
  cases slow with
  | none=>rfl
  | some _=>
   dsimp only[Prod.map,id,after]
   split
   ·split<;>simp[tell]
   ·rfl
 | _=>rfl
end Progress
/-! ## Passing through the blocks -/

/-- A scan that passes through the blocks that a source gives, and why it stops. -/
inductive Passes (c:SearchSetting)(memory:Bool):
 Source→Progress→Int64→ResultCode→Source→Progress→Int64→Prop where
 | stop {S τ:Source}{p:Progress}{e:Int64}:S.next=(none,τ)→
  Passes c memory S p e .success τ p e
 | fail {S τ:Source}{b:SourceBlock}{p q:Progress}{e e':Int64}{code:ResultCode}:
  S.next=(some b,τ)→visitBlock c memory b p e=(code,q,e')→code≠.success→
  Passes c memory S p e code τ q e'
 | on {S τ τ':Source}{b:SourceBlock}{p q q':Progress}{e e' e'':Int64}
  {code:ResultCode}:S.next=(some b,τ)→visitBlock c memory b p e=(.success,q,e')→
  Passes c memory τ q e' code τ' q' e''→Passes c memory S p e code τ' q' e''
namespace Passes
variable {memory:Bool}{p q:Progress}{e e':Int64}{code:ResultCode}
lemma unique {cd:ResultCode}{τ':Source}{q':Progress}{e'':Int64}
 (h:Passes c memory S p e code τ q e')(h':Passes c memory S p e cd τ' q' e''):
 (code,τ,q,e')=(cd,τ',q',e''):=by
 induction h with
 | stop hn=>
  cases h' with
  | stop hn'=>
   cases hn.symm.trans hn'
   rfl
  | fail hn'=>cases hn.symm.trans hn'
  | on hn'=>cases hn.symm.trans hn'
 | fail hn _ _=>
  cases h' with
  | stop hn'=>cases hn.symm.trans hn'
  | fail _ _=>grind
  | on _ _=>grind
 | on hn _ _ _=>
  cases h' with
  | stop hn'=>cases hn.symm.trans hn'
  | fail _ _ _=>grind
  | on _ _ _=>grind
lemma after (told:Array Event)(blamed:Option Nat)(h:Passes c memory S p e code τ q e'):
 Passes c memory S (p.after told blamed) e code τ (q.after told blamed) e':=by
 have hv (b:SourceBlock)(p:Progress)(e:Int64):visitBlock c memory b (p.after told blamed) e=
   (visitBlock c memory b p e).map id (Prod.map (Progress.after told blamed) id):=by
  unfold visitBlock
  cases b.data with
  | none=>rfl
  | some _=>
   dsimp only
   rw[Progress.search_after]
   rfl
 induction h with
 | stop hn=>exact .stop hn
 | fail hn hb hne=>
  refine .fail hn ?_ hne
  rw[hv,hb]
  rfl
 | on hn hb _ ih=>
  refine .on hn ?_ ih
  rw[hv,hb]
  rfl
lemma of_code (d:Int)(h:Passes c memory S p e code τ q e'):Passes c memory {S with code:=d} p e code τ q e':=by
 have hn:({S with code:=d}:Source).next=S.next:=rfl
 cases h with
 | stop h=>exact .stop (hn.trans h)
 | fail h hb hne=>exact .fail (hn.trans h) hb hne
 | on h hb hr=>exact .on (hn.trans h) hb hr
lemma code_ne (h:Passes c memory S p e code τ q e'):code≠.blockNotReady:=by
 induction h with
 | stop _=>exact nofun
 | on _ _ _ ih=>exact ih
 | @fail S τ b p q e _ code _ hb _=>
  unfold visitBlock at hb
  split at hb
  ·cases hb
   exact nofun
  next d _=>
  have ht:∀j,Accepts c.set c.room ⟨b.base.toInt64,d⟩ (c.set.string j)
   fun _ _=>True:=fun j=>⟨fun _=>trivial,fun _ _=>trivial,fun _ _ _ _ _ _ _=>trivial⟩
  have hs:=(p.search_accepts ht (fun _ _=>trivial)).code
  cases hb
  exact hs

/-- A pass through a good source ends because it is not ready, and then the ready source leads to
where the rest of it leads, or it ends as with the ready source. -/
lemma ready (h:Passes c memory S p e code τ q e')(hS:S.Good):
 (code=.success∧τ.code=Source.notReady∧τ.Good∧τ.patience<S.patience∧
  ∀{code' τ' q' e''},Passes c memory τ.ready q e' code' τ' q' e''→
   Passes c memory S.ready p e code' τ' q' e'')∨
 (Passes c memory S.ready p e code τ.ready q e'∧
  (code=.success→τ.code≠Source.notReady∧(τ.code=0→τ.Spent))):=by
 induction h with
 | stop hn=>
  rcases Source.next_cases hS with⟨s',hs',hc,hg,hlt,hr⟩ |
   ⟨b,s',hs',hr,hc,⟨x,rfl,-⟩ | ⟨rfl,hsp⟩⟩
  ·cases hn.symm.trans hs'
   refine .inl ⟨rfl,hc,hg,hlt,fun h=>?_⟩
   rw[hr]at h
   exact h.of_code _
  ·cases hn.symm.trans hs'
  ·cases hn.symm.trans hs'
   exact .inr ⟨.stop hr,fun _=>⟨hc,hsp⟩⟩
 | fail hn hb hne=>
  rcases Source.next_cases hS with⟨s',hs',-⟩|⟨b,s',hs',hr,-⟩
  ·cases hn.symm.trans hs'
  ·cases hn.symm.trans hs'
   exact .inr ⟨.fail hr hb hne,fun h=>absurd h hne⟩
 | on hn hb _ ih=>
  rcases Source.next_cases hS with⟨s',hs',-⟩|⟨b,s',hs',hr,hc,⟨x,rfl,hg,hp⟩|⟨rfl,-⟩⟩
  ·cases hn.symm.trans hs'
  ·cases hn.symm.trans hs'
   rcases ih hg with⟨hok,hc,hg',hlt,hre⟩|⟨hpa,he⟩
   ·exact .inl ⟨hok,hc,hg',hp▸hlt,fun h=>.on hr hb (hre h)⟩
   ·exact .inr ⟨.on hr hb hpa,he⟩
  ·cases hn.symm.trans hs'
end Passes
namespace Scanner
lemma passes_searchBlocks (s:Scanner)(c:SearchSetting)(n:Nat):
 ∀(S:Source)(p:Progress)(e:Int64),S.blocks.size-S.position<n→
  ∃code τ q e',s.searchBlocks c n S.next.1 S.next.2 p e=(code,τ,q,e')∧
   Passes c s.flags.memory S p e code τ q e':=by
 induction n with
 | zero=>exact fun S p e hn=>absurd hn (Nat.not_lt_zero _)
 | succ n ih=>
  intro S p e hn
  rcases hne:S.next with⟨_|b,τ⟩
  ·exact⟨_,_,_,_,rfl,.stop hne⟩
  obtain⟨hlt,rfl⟩:=Source.eq_of_next_eq_some hne
  have hr:=fun q e=>ih {S with position:=S.position+1,code:=0} q e (by dsimp only;omega)
  rw[searchBlocks]
  rcases hv:visitBlock c s.flags.memory b p e with⟨code,q,e'⟩
  by_cases hc:code=.success
  ·subst hc
   obtain⟨code,τ,q',e'',heq,hp⟩:=hr q e'
   exact⟨code,τ,q',e'',heq,.on hne hv hp⟩
  ·exact⟨code,_,q,e',by cases code<;>first | rfl | exact absurd rfl hc,.fail hne hv hc⟩
lemma scan_eq_finish (x:Scanner)(cfg:Configuration)(listener:Listener)(sr:Source):
 ∃code τ q e,Passes (x.searchSetting cfg listener) x.flags.memory (x.outset sr).1
  (x.outset sr).2 x.entryPoint code τ q e∧
  x.scan cfg (some listener) sr=x.finish cfg listener code τ q e:=by
 obtain⟨code,τ,q,e,hs,hp⟩:=passes_searchBlocks x (x.searchSetting cfg listener)
  ((x.outset sr).1.blocks.size+1) (x.outset sr).1 (x.outset sr).2 x.entryPoint
  (by omega)
 refine⟨code,τ,q,e,hp,?_⟩
 rw[←Source.size_next]at hs
 unfold scan
 dsimp only
 rw[hs]
variable (x:Scanner)(cfg:Configuration)(listener:Listener)
lemma finish_after (told:Array Event)(code:ResultCode)(τ:Source)(q:Progress)
 (e:Int64):x.finish cfg listener code τ (q.after told none) e={ x.finish cfg listener code τ q e with
    events:=told++(x.finish cfg listener code τ q e).events }:=by
 unfold finish Progress.after
 rw[Option.or_none]
 by_cases hc:(code != .success)
 ·simp only[hc,if_true]
 ·by_cases he:(τ.code != 0)
  ·simp only[hc,he,false_eq_true,if_true,if_false]
  ·simp only[hc,he,false_eq_true,if_false,conclude_after]
lemma finish_ready {code:ResultCode}(hτ:code=.success→τ.code=0→τ.Spent)(q:Progress)(e:Int64):
 x.finish cfg listener code τ.ready q e={ x.finish cfg listener code τ q e with
    source:=(x.finish cfg listener code τ.ready q e).source }:=by
 unfold finish
 by_cases hc:code=.success
 ·by_cases he:τ.code=0
  ·have hs:=hτ hc he
   obtain⟨hr,hbl⟩:=hs.ready
   have hv:=hr.visit
   rw[hbl]at hv
   have he':τ.ready.code=0:=he
   simp only[hc,he,he',bne_self_eq_false,false_eq_true,if_false]
   rw[conclude_source _ cfg listener hs.visit hv rfl]
  ·have he':τ.ready.code=τ.code:=rfl
   grind
 ·simp only[bne_iff_ne.2 hc,if_true]
lemma ofNumber_ne {n:Int}(h:n≠Source.notReady):ofNumber n≠.blockNotReady:=by
 unfold ofNumber
 split
 ·next row hr=>
  have hn:=find?_some hr
  have hm:=mem_of_find?_eq_some hr
  intro hc
  have hr:∀row∈table,row.1=.blockNotReady→(row.2.1:Int)=61:=by decide
  exact h ((of_decide_eq_true hn).symm.trans (hr row hm hc))
 ·exact nofun
lemma finish_code_ne {code:ResultCode}(hc:code≠.blockNotReady)
 (hτ:code=.success → τ.code≠Source.notReady)(q:Progress)(e:Int64):
 (x.finish cfg listener code τ q e).code≠.blockNotReady:=by
 unfold finish
 split
 ·exact hc
 ·next hok=>
  split
  ·exact ofNumber_ne (hτ (by simpa using hok))
  ·exact conclude_code_ne _ _ _ _ _ _
lemma finish_notReady (hτ:τ.code=Source.notReady)(q:Progress)(e:Int64):x.finish cfg listener .success τ q e=
  ⟨.blockNotReady,q.events,{x with findings:=q.findings,entryPoint:=e,culprit:=q.culprit},τ⟩:=by
 unfold finish
 simp only[hτ]
 rfl
lemma outset_ready:(x.outset S.ready).1=(x.outset S).1.ready∧(x.outset S.ready).2=(x.outset S).2:=by
 unfold outset
 have hc:S.ready.code=S.code:=rfl
 rw[hc]
 split<;>exact⟨rfl,rfl⟩
end Scanner
end PatternScan.Scan
namespace PatternScan
open Scan
def Session.ScanRuns.events (r:ScanRuns):Array Event:=r.runs.foldr (·++·) #[]
namespace Session
variable (cfg:Configuration)(listener:Listener)
lemma scanUntilReady_eq_finish (n:Nat):∀(x:Scanner)(sr:Source),
 (x.outset sr).1.Good→(x.outset sr).1.patience≤n→∀{code τ q e},
  Passes (x.searchSetting cfg listener) x.flags.memory (x.outset sr).1.ready
   (x.outset sr).2 x.entryPoint code τ q e→
  ∃runs,scanUntilReady cfg (some listener) (fun x s=>x.scan cfg (some listener) s) n x sr=
   (runs,(x.finish cfg listener code τ q e).scanner)∧
   runs.code=(x.finish cfg listener code τ q e).code∧
   runs.events=(x.finish cfg listener code τ q e).events∧
   runs.code≠.blockNotReady:=by
 induction n with
 | zero=>tauto
 | succ n ih=>
  intro x sr hg hn code τ q e hp
  obtain⟨code1,τ1,q1,e1,hpa1,hs⟩:=x.scan_eq_finish cfg listener sr
  rw[scanUntilReady,hs]
  rcases hpa1.ready hg with⟨rfl,hc,hgo1,hlt,hre⟩|⟨hp',he⟩
  · -- the next call goes on where this one has stopped
   rw[Scanner.finish_notReady _ _ _ hc]
   generalize hx':({x with findings:=q1.findings,entryPoint:=e1,culprit:=q1.culprit}:Scanner)=x'
   have ho:x'.outset τ1=(τ1,⟨q1.findings,#[],q1.culprit⟩):=by
    unfold Scanner.outset
    rw[if_pos (beq_iff_eq.2 hc),←hx']
   obtain⟨code2,τ2,q2,e2,-,hpa2⟩:=Scanner.passes_searchBlocks x'
    (x'.searchSetting cfg listener) (τ1.ready.blocks.size+1) τ1.ready
    ⟨q1.findings,#[],q1.culprit⟩ e1 (by omega)
   have hf (p:Progress):x'.finish cfg listener code2 τ2 p e2=x.finish cfg listener code2 τ2 p e2:=by
    rw[←hx']
    rfl
   have ht:=hpa2.after q1.events none
   have hq1:Progress.after q1.events none ⟨q1.findings,#[],q1.culprit⟩=q1:=by simp[Progress.after]
   rw[hq1]at ht
   have hu:=(hre (by rw[←hx']at ht;exact ht)).unique hp
   cases hu
   obtain⟨runs,hr,hc',hev,hne⟩:=ih x' τ1 (by rw[ho];exact hgo1)
    (by rw[ho];dsimp only;omega) (by rw[ho];rw[←hx']at hpa2⊢;exact hpa2)
   rw[hf]at hr hc' hev
   rw[Scanner.finish_after]
   refine⟨⟨runs.code,q1.events::runs.runs⟩,?_,hc',?_,hne⟩
   ·dsimp only
    rw[hr]
    rfl
   ·rw[←hev]
    rfl
  ·cases hp'.unique hp
   have hne:=x.finish_code_ne cfg listener hpa1.code_ne (fun h=>(he h).1) q e
   rw[x.finish_ready cfg listener (fun h=>(he h).2) q e]
   refine⟨⟨_,[_]⟩,?_,rfl,append_empty,hne⟩
   rw[if_neg (by simpa using hne)]

/-- A source may not be ready any number of times. The calls that this takes end as one call does for the ready
source: with the same code, events, matches and scanner. -/
theorem scan_resumed (s:Session) (k:Nat) (listener:Option Listener) (source:Source)
 (hcode:source.code ≠ Source.notReady) (hgenuine:∀ b∈source.blocks,b.signal ≠ some 0) :
 (s.scan k listener false source).map (fun r=>(r.1.code,r.1.events,r.2)) =
  (s.scanner? k).map (fun x=>
   let r:=x.scan s.configuration listener source.ready
   (r.code,r.events,r.scanner,s.withScanner k fun _=>r.scanner)) ∧
 ∀ x:Scanner,(x.scan s.configuration listener source.ready).code ≠ .blockNotReady := by
 have hruns (x:Scanner):∃runs,
  scanUntilReady s.configuration listener (fun x t=>x.scan s.configuration listener t)
   source.patience x source=
   (runs,(x.scan s.configuration listener source.ready).scanner)∧
  runs.code=(x.scan s.configuration listener source.ready).code∧
  runs.events=(x.scan s.configuration listener source.ready).events∧
  runs.code≠.blockNotReady:=by
  cases listener with
  | none=>exact⟨_,rfl,rfl,rfl,nofun⟩
  | some listener=>
   have houts:(x.outset source).1={source with position:=0}:=by
    unfold Scanner.outset
    rw[if_neg (by simpa using hcode)]
   have hgood:(x.outset source).1.Good:=by
    rw[houts]
    exact⟨zero_le,hgenuine,fun i hi=>absurd hi (Nat.not_lt_zero i)⟩
   have hpatience:(x.outset source).1.patience ≤ source.patience:=by
    rw[houts]
    exact le_rfl
   obtain⟨code,τ,q,e,hpass,hscan⟩:=x.scan_eq_finish s.configuration listener source.ready
   rw[x.outset_ready.1,x.outset_ready.2]at hpass
   rw[hscan]
   exact scanUntilReady_eq_finish _ _ _ x source hgood hpatience hpass
 refine⟨?_,fun x=>?_⟩
 ·unfold Session.scan scanRuns
  cases s.scanner? k with
  | none=>rfl
  | some x=>
   obtain⟨runs,heq,hcode,hevs,-⟩:=hruns x
   simp only[Option.map_some,Bool.false_eq_true,if_false]
   rw[heq,hcode,hevs]
 ·obtain⟨runs,-,hcode,-,hne⟩:=hruns x
  exact hcode▸hne
theorem scan_resumed_blocks :
 let set:RuleSet:={ (default:RuleSet) with
  rules := #[default],code := #[.pushInteger 1,.closeRule 0,.halt] }
 let s:Session:={ sets := #[set],scanners := [(0,⟨0,Scanner.create set⟩)] }
 let source:Source :=
  { blocks := #[⟨0,some ⟨#[97,98]⟩,none⟩,⟨2,some ⟨#[99]⟩,some Source.notReady⟩]
    pauses := fun i=>if i=2 then 3 else 0 }
 source.code≠Source.notReady∧(∀ b∈source.blocks,b.signal≠some 0)∧
  (s.scan 0 (some default) false source).map (fun r=>(r.1.code,r.1.events,r.2))=
   (s.scanner? 0).map (fun x=>
    let r:=x.scan s.configuration (some default) source.ready
    (r.code,r.events,r.scanner,s.withScanner 0 fun _=>r.scanner)):=
 ⟨by decide,by simp [Source.notReady],(scan_resumed _ _ _ _ (by decide) (by simp [Source.notReady])).1⟩
end Session
end PatternScan
