import PatternScan.Proofs.Rule.Walks
import PatternScan.Proofs.Scan.Matches
import PatternScan.Proofs.Scan.Resumption
/-! The matches of a string lie in the blocks, and stay in the order of their positions. -/
open List
namespace PatternScan.Scan
variable {data:Bytes}{s τ S:Source}{f:Findings}{q:Progress}
/-! ## Sources -/
def Source.Holds (s:Source)(base:UInt64)(data:Bytes):Prop:=
 ∃b∈s.blocks,b.base=base∧b.data=some data
def Source.Lone (s:Source):Prop:=
 ∀{base base' data data'},s.Holds base data→s.Holds base' data'→base=base'∧data=data'
def Source.Apart (s:Source):Prop:=
 ∀{base base' data data'},s.Holds base data→s.Holds base' data'→∀{i j},i<data.size→j<data'.size→
   base.toInt64+Int64.ofNat i=base'.toInt64+Int64.ofNat j→base=base'∧i=j
def Source.Covers (s S:Source):Prop:=∀base data,S.Holds base data→s.Holds base data
lemma Source.holds_next (s:Source){bs:UInt64}(h:s.next.2.Holds bs data):
 s.Holds bs data:=by
 obtain⟨b,hb,hba,hda⟩:=h
 unfold next at hb
 split at hb
 ·exact⟨b,hb,hba,hda⟩
 split at hb
 ·exact⟨b,hb,hba,hda⟩
 split at hb
 ·obtain⟨i,hi⟩:=Array.mem_iff_getElem?.1 hb
  rw[Array.getElem?_modify]at hi
  split at hi
  ·obtain⟨x,hx,rfl⟩:=Option.map_eq_some_iff.1 hi
   exact⟨x,Array.mem_of_getElem? hx,hba,hda⟩
  ·exact⟨b,Array.mem_of_getElem? hi,hba,hda⟩
 ·exact⟨b,hb,hba,hda⟩
lemma Source.holds_of_next {b:SourceBlock}
 (h:s.next=(some b,τ))(hda:b.data=some data):s.Holds b.base data:=by
 unfold next at h
 split at h
 ·cases h
 split at h
 ·cases h
 ·next hb=>
  split at h
  ·cases h
  ·cases h
   exact⟨_,Array.mem_of_getElem? hb,rfl,hda⟩

/-! ## Matches in blocks -/
def Match.Placed (s:Source)(m:Match):Prop:=
 ∃base data,s.Holds base data∧m.base=base.toInt64∧m.offset<data.size

/-- A match lies in a block of a source, with the data that it shows. -/
def Match.Inside (s:Source)(m:Match):Prop:=
 ∃base data,s.Holds base data∧m.base=base.toInt64∧m.offset<data.size∧
  m.offset+m.length≤data.size∧m.block=data∧m.start=m.offset∧m.shown ≤ m.length
def RuleSet.Single (set:RuleSet)(k:Nat):Prop:=
 ∀i l,(set.string i).link=some l→(set.string l.previous).index≠k
def RuleSet.Steady (set:RuleSet)(k:Nat):Prop:=
 ∀i,(set.string i).index=k→(set.string i).flags.greedy=false
structure Findings.Contained (set:RuleSet)(s:Source)(f:Findings):Prop where
 pending:∀k,∀m∈f.waiting k,m.Placed s
 confirmed:∀k,RuleSet.Single set k∨s.Lone→RuleSet.Steady set k∨s.Apart→∀m∈f.of k,m.Inside s
namespace Findings.Contained
variable {set:RuleSet}
lemma confirm (h:f.Contained set s){i:Nat}{m:Match}{r:Bool}
 (hr:r→(set.string i).flags.greedy)
 (hm:RuleSet.Single set (set.string i).index∨s.Lone→m.Inside s):
 (f.confirm (set.string i) m r).2.Contained set s:=by
 refine⟨h.pending,fun k hsg hs x hx=>?_⟩
 rcases f.of_confirm (set.string i) m r k with heq|⟨rfl,heq⟩
 ·exact h.confirmed k hsg hs x (heq▸hx)
 rw[heq]at hx
 rcases MatchList.mem_insert hx with hx|rfl|⟨rfl,y,hy,hp,rfl⟩
 ·exact h.confirmed _ hsg hs x hx
 ·exact hm hsg
 rcases hs with hs|ha
 ·cases (hs i rfl).symm.trans (hr rfl)
 obtain⟨base,data,hh,hb,ho,he,hbl,hst,hsh⟩:=hm hsg
 obtain⟨base',data',hh',hb',ho',-⟩:=
  h.confirmed _ hsg (.inr ha) y hy
 unfold Match.position at hp
 rw[hb,hb']at hp
 obtain⟨rfl,heq⟩:=ha hh' hh ho' ho hp
 refine⟨base',data,hh,hb',?_,?_,hbl,?_,hsh⟩
 ·exact heq▸ho
 ·exact heq▸he
 ·exact hst.trans heq.symm
lemma empty:(Findings.empty set).Contained set s:=by
 have he (k n:Nat):(Array.replicate n (.empty:MatchList)).getD k .empty=.empty:=by
  rw[Array.getD_eq_getD_getElem?,Array.getElem?_replicate]
  split<;>rfl
 refine⟨fun k m hm=>?_,fun k _ _ m hm=>?_⟩
 ·rw[Findings.waiting,Findings.empty,he]at hm
  cases hm
 ·rw[Findings.of,Findings.empty,he]at hm
  cases hm
lemma narrow (h:f.Contained set s){J:Nat→Prop}{l:Array MatchList}
 (hn:Narrows J f.pending l):({f with pending:=l}:Findings).Contained set s:=by
 refine⟨fun k x hx=>?_,h.confirmed⟩
 obtain⟨y,hy,heq⟩:=(hn.among k).exists_mem hx
 have hp:y.bare.Placed s:=h.pending k y hy
 exact (heq▸hp:x.bare.Placed s)
lemma wait (h:f.Contained set s)(i:Nat){m:Match}(hm:m.Placed s):(f.wait i m).2.Contained set s:=by
 refine⟨fun k x hx=>?_,h.confirmed⟩
 rcases f.waiting_wait i m k with heq|⟨rfl,heq⟩
 ·exact h.pending k x (heq▸hx)
 ·rw[heq]at hx
  rcases MatchList.mem_insert hx with hx|rfl|⟨hf,-⟩
  ·exact h.pending i x hx
  ·exact hm
  ·cases hf
lemma exists_of_mem_linksFrom {st:Array RuleString}(n:Nat):∀{i:Nat}{l:ChainLink},
 l∈linksFrom st n i→∃j,(st.getD j default).link=some l:=by
 induction n with
 | zero=>exact nofun
 | succ n _=>
  intro i l hl
  rw[linksFrom]at hl
  grind
lemma accept (h:f.Contained set s){base:UInt64}{data:Bytes}(hh:s.Holds base data)
 (r:Int)(j:Nat){o ln:Nat}(ho:o<data.size)
 (he:o+ln≤data.size)(w:Bool)(key:UInt8):
 (accept set r (set.string j) ⟨base.toInt64,data⟩ o ln w key f).2.Contained set s:=by
 have hk:Keeps set r (set.string j)
  (found r (set.string j) ⟨base.toInt64,data⟩ o ln key) (Findings.Contained set s):=by
  refine⟨fun hf hn=>hf.narrow hn,fun hf=>hf.wait _ ⟨base,data,hh,rfl,ho⟩,fun hf=>hf.confirm id fun _=>?_,
   fun {f0 f l x} hf0 hf hl hx=>hf.confirm nofun fun hs=>?_⟩
  ·exact⟨base,data,hh,rfl,ho,he,rfl,rfl,min_le_left _ _⟩
  obtain⟨i,hi⟩:=exists_of_mem_linksFrom _ hl
  obtain⟨base',data',hh',hb,ho'⟩:=hf0.pending _ x hx
  obtain⟨rfl,rfl⟩:=hs.resolve_left (fun h=>h i l hi rfl) hh hh'
  refine⟨base,data,hh,hb,ho',?_,rfl,rfl,min_le_left _ _⟩
  dsimp only[Match.completed,found]
  omega
 exact (hk.accept w h).2
end Findings.Contained
/-! ## Scans -/

/-- What every match that is accepted keeps is kept by a whole scan. Meanwhile no matches are told. -/
lemma Passes.keeps {c:SearchSetting}{m:Bool}{p:Progress}
 {e e':Int64}{cd:ResultCode}{I:Findings→Prop}(h:Passes c m S p e cd τ q e')
 (ha:∀bs data,s.Holds bs data→∀j,Accepts c.set c.room ⟨bs.toInt64,data⟩
  (c.set.string j) fun f f'=>I f→I f')
 (hsi:∀f i,I f→I {f with silenced:=f.silenced.setIfInBounds i true})
 (hS:s.Covers S)(hp:I p.findings):
 I q.findings ∧ (∀e∈q.events,e∈p.events ∨ e.report?=none) ∧ s.Covers τ:=by
 have hv {S τ:Source} {b:SourceBlock} {p q:Progress} {e e':Int64} {cd:ResultCode}
  (hS:s.Covers S) (hn:S.next=(some b,τ)) (hb:visitBlock c m b p e=(cd,q,e'))
  (hp:I p.findings):
  I q.findings ∧ ∀e∈q.events,e∈p.events ∨ e.report?=none:=by
  unfold visitBlock at hb
  split at hb
  ·cases hb
   exact⟨hp,fun _ he=>.inl he⟩
  ·next data hda=>
   have hs:=p.search_accepts (ha _ _ (hS _ _ (Source.holds_of_next hn hda))) hsi
   cases hb
   exact⟨hs.findings hp,hs.events⟩
 have hr {S τ:Source} {b:Option SourceBlock} (hn:S.next=(b,τ)) (hS:s.Covers S):
  s.Covers τ:=fun bs data h=>hS bs data (S.holds_next (by rw[hn];exact h))
 induction h with
 | stop hn=>exact⟨hp,fun _ he=>.inl he,hr hn hS⟩
 | fail hn hb _=>
  obtain⟨hq,ht⟩:=hv hS hn hb hp
  exact⟨hq,ht,hr hn hS⟩
 | on hn hb _ ih=>
  obtain⟨hq,ht⟩:=hv hS hn hb hp
  obtain⟨hq',ht',hτ⟩:=ih (hr hn hS) hq
  exact⟨hq',fun e he=>(ht' e he).elim (ht e) .inr,hτ⟩

/-- Every match that is told lies in a block, unless its string is one of the exceptions. -/
def Event.Contained (set:RuleSet)(s:Source)(e:Event):Prop:=
 ∀i l,(i,l)∈e.matches→RuleSet.Single set (set.string i).index∨s.Lone→
  RuleSet.Steady set (set.string i).index∨s.Apart→∀m∈l,m.Inside s
namespace Scanner
variable (cfg:Configuration)(listener:Listener)
lemma Reports.contained {x:Scanner}{e:Event}(h:x.Reports f e)
 (hf:f.Contained x.set s):e.Contained x.set s:=by
 intro j l hl
 rw[Event.matches_eq]at hl
 cases hr:e.report? with
 | none=>
  rw[hr]at hl
  cases hl
 | some told=>
  obtain⟨r,-,hfn⟩:=h told.1 told.2 hr
  rw[hr,Option.elim,hfn,ruleMatches,mem_filterMap]at hl
  obtain⟨j',-,hj⟩:=hl
  dsimp only at hj
  split at hj
  ·cases hj
  ·cases hj
   exact hf.confirmed _
structure ScanResult.Contained (set:RuleSet)(s:Source)(r:ScanResult):Prop where
 events:∀e∈r.events,e.Contained set s
 findings:r.scanner.findings.Contained set s
 set:r.scanner.set=set
 source:r.code=.blockNotReady→s.Covers r.source
lemma finish_contained (x:Scanner)(c:ResultCode)
 (hq:q.findings.Contained x.set s)(hn:∀e∈q.events,e.report?=none)(hτ:s.Covers τ)
 (en:Int64):ScanResult.Contained x.set s (x.finish cfg listener c τ q en):=by
 have hev:∀e∈q.events,e.Contained x.set s:=by
  intro e he i l hl
  rw[Event.matches_eq,hn e he]at hl
  cases hl
 unfold finish
 split
 ·exact⟨hev,.empty,rfl,fun _=>hτ⟩
 split
 ·split
  ·exact⟨hev,hq,rfl,fun _=>hτ⟩
  ·exact⟨hev,.empty,rfl,fun _=>hτ⟩
 obtain⟨o,hs⟩:=conclude_objects
  ⟨x.set,x.mask,x.objects,en,Findings.empty x.set,q.culprit⟩ cfg listener τ q en
 have ht:=conclude_reports
  ⟨x.set,x.mask,x.objects,en,Findings.empty x.set,q.culprit⟩ cfg listener τ hn en
 refine⟨fun e he=>(ht e he).contained hq,?_,?_,fun h=>?_⟩
 ·rw[hs]
  exact .empty
 ·rw[hs]
 ·exact absurd h (conclude_code_ne _ _ _ _ _ _)
lemma scan_contained (x:Scanner)(hfi:x.set.regexCode.Firm)(hx:x.findings.Contained x.set s)(listener:Option Listener)
 (hS:s.Covers S):
 ScanResult.Contained x.set s (x.scan cfg listener S):=by
 cases listener with
 | none=>exact⟨nofun,.empty,rfl,nofun⟩
 | some listener=>
  obtain⟨c,τ,q,e,hp,hs⟩:=x.scan_eq_finish cfg listener S
  have ho:s.Covers (x.outset S).1∧(x.outset S).2.findings.Contained x.set s∧(x.outset S).2.events=#[]:=by
   unfold outset
   split
   ·exact⟨hS,hx,rfl⟩
   ·exact⟨hS,⟨hx.pending,hx.confirmed⟩,rfl⟩
  obtain⟨hc,hst,ht⟩:=ho
  obtain⟨hq,hev,hτ⟩:=hp.keeps (fun b data hh j=>⟨fun _=>id,fun h h' hf=>h' (h hf),
    fun f _ _ wide key hof hen hf=>hf.accept hh _ j hof (hen hfi) wide key⟩)
   (fun _ _ hf=>⟨hf.pending,hf.confirmed⟩) hc hst
  rw[hs]
  refine x.finish_contained cfg listener c hq (fun e he=>?_) hτ e
  exact (hev e he).resolve_left (ht▸Array.not_mem_empty e)
lemma scanBytes_contained (x:Scanner)(hfi:x.set.regexCode.Firm)(hx:x.findings.Contained x.set s)
 (listener:Option Listener)(hS:s.Covers S):
 ScanResult.Contained x.set s (x.scanBytes cfg listener S):=by
 have hs:=x.scan_contained cfg hfi hx listener hS
 unfold scanBytes
 dsimp only
 split
 ·split
  ·split
   ·refine⟨fun e he=>?_,hs.findings,hs.set,hs.source⟩
    rcases Array.mem_append.1 he with he|he
    ·rw[Array.mem_singleton.1 he]
     exact nofun
    ·exact hs.events e he
   ·refine⟨fun e he=>?_,hx,rfl,fun _=>hS⟩
    rw[Array.mem_singleton.1 he]
    exact nofun
  ·exact hs
 ·exact hs
end Scanner
end PatternScan.Scan
namespace PatternScan
open Scan
namespace Session
lemma scanUntilReady_contained (cfg:Configuration)(listener:Option Listener){s:Source}
 {set:RuleSet}(hfi:set.regexCode.Firm)(n:Nat):∀(start:Scanner→Source→ScanResult)(x:Scanner)(S:Source),
  Scanner.ScanResult.Contained set s (start x S)→
  ∀run∈(scanUntilReady cfg listener start n x S).1.runs,∀e∈run,e.Contained set s:=by
 induction n with
 | zero=>exact fun _ _ _ _=>nofun
 | succ n ih=>
  intro start x S h
  rw[scanUntilReady]
  split
  ·next hc=>
   rintro run (_|⟨_,hr⟩)
   ·exact h.events
   ·have ha:=Scanner.scan_contained cfg (start x S).scanner (h.set▸hfi) (h.set▸h.findings) listener
     (h.source (beq_iff_eq.1 hc))
    exact ih _ _ _ (h.set▸ha) run hr
  ·rintro run hr
   rw[mem_singleton.1 hr]
   exact h.events

/-- Every match that a scan reports lies in one of the blocks, with the bytes that it shows, unless other parts of its
string follow and several blocks are read, or its string is greedy and blocks overlap. -/
theorem scanRuns_contained (cfg:Configuration) (listener:Option Listener) (whole:Bool)
 (x:Scanner) (hfirm:x.set.regexCode.Firm) (hx:x.findings = Findings.empty x.set) (source:Source) :
 ∀ run∈(scanRuns cfg listener whole x source).1.runs,∀ e∈run,∀ i l,(i,l) ∈ e.matches →
  RuleSet.Single x.set (x.set.string i).index ∨ source.Lone →
  RuleSet.Steady x.set (x.set.string i).index ∨ source.Apart → ∀ m∈l,m.Inside source := by
 have hst:x.findings.Contained x.set source:=hx ▸ .empty
 refine scanUntilReady_contained cfg listener hfirm _ _ x source ?_
 cases whole
 ·exact x.scan_contained cfg hfirm hst listener fun _ _=>id
 ·exact x.scanBytes_contained cfg hfirm hst listener fun _ _=>id
open Rule in
/-- `rule parts { strings: $a = {61 [0-300] 62} condition: $a }`, whose string is cut at its jump. -/
def twoParts:RuleSet:=
 let opened:=(({}:Compiler).enterSpace "default").declaring "parts"
 let declared:=((declareString "$a" {flags:={StringFlags.none with hexadecimal:=true}}
  ⟨#[123,54,49,32,91,48,45,51,48,48,93,32,54,50,125]⟩).run opened).2
 let closed:=((perform .stringSection [] []).run declared).2
 (((perform .found [.literal (.name "$a")] []).run closed).2.concluding (.found (.string 0)) 1).ruleSet

/-- The match that starts in the first block has its length from the second one. -/
theorem scanRuns_part_elsewhere :
 let source:Source :=
  { blocks := #[⟨0,some ⟨#[97]⟩,none⟩,⟨16,some ⟨#[99,99,98]⟩,none⟩] }
 ∃run∈(scanRuns {} (some default) false (Scanner.create twoParts) source).1.runs,
  ∃e∈run.toList,∃x∈e.matches,∃m∈x.2.toList,¬m.Inside source:=by
 intro source
 have hrun:∃run∈(scanRuns {} (some default) false (Scanner.create twoParts) source).1.runs,
  ∃e∈run.toList,∃x∈e.matches,∃m∈x.2.toList,m.base=0∧m.offset+m.length=3:=by
  decide +kernel
 obtain⟨run,hrun,e,he,x,hx,m,hm,hbase,hlen⟩:=hrun
 refine⟨run,hrun,e,he,x,hx,m,hm,?_⟩
 rintro⟨base,data,⟨b,hb,rfl,hdata⟩,hbase',-,hend,-⟩
 simp only[source,mem_toArray,mem_cons,not_mem_nil,or_false]at hb
 rcases hb with rfl|rfl
 ·cases hdata
  rw[hlen]at hend
  exact absurd hend (by decide)
 ·exact absurd (hbase.symm.trans hbase') (by decide)
theorem scanRuns_contained_parts :
 let source:Source:={ blocks := #[⟨0,some ⟨#[97,99,98]⟩,none⟩] }
 twoParts.regexCode.Firm∧(Scanner.create twoParts).findings=Findings.empty twoParts∧source.Lone∧
  RuleSet.Steady twoParts 0∧
  ∃ run∈(scanRuns {} (some default) false (Scanner.create twoParts) source).1.runs,
   ∃ e∈run,∃ l,(0,l)∈e.matches∧∃ m∈l,m.length=3∧m.Inside source:=by
 intro source
 have hlone:source.Lone:=by
  rintro _ _ _ _ ⟨b,hb,rfl,hdata⟩ ⟨b',hb',rfl,hdata'⟩
  simp only[source,mem_toArray,mem_singleton]at hb hb'
  subst hb hb'
  exact⟨rfl,Option.some.inj (hdata.symm.trans hdata')⟩
 have hnone:twoParts.regexCode.size=0:=by decide +kernel
 have hfirm:twoParts.regexCode.Firm:=Regex.Code.firm_of_still fun x hx=>by omega
 have hlazy:∀y∈twoParts.strings,y.flags.greedy=false:=by decide +kernel
 have hstdy:RuleSet.Steady twoParts 0:=by
  intro i _
  rw[RuleSet.string,Array.getD_eq_getD_getElem?]
  cases hy:twoParts.strings[i]? with
  | none=>rfl
  | some y=>exact hlazy y (Array.mem_of_getElem? hy)
 have hindex:(twoParts.string 0).index=0:=by decide +kernel
 have hrun:∃run∈(scanRuns {} (some default) false (Scanner.create twoParts) source).1.runs,
  ∃e∈run.toList,∃x∈e.matches,x.1=0∧∃m∈x.2.toList,m.length=3:=by
  decide +kernel
 obtain⟨run,hrun,e,he,⟨i,l⟩,hx,rfl,m,hm,hlen⟩:=hrun
 have he:=Array.mem_toList_iff.mp he
 exact⟨hfirm,rfl,hlone,hstdy,run,hrun,e,he,l,hx,m,hm,hlen,
  scanRuns_contained {} _ _ _ hfirm rfl source run hrun e he _ l hx (.inr hlone)
   (.inl (hindex.symm ▸ hstdy)) m hm⟩
end Session
end PatternScan
namespace PatternScan.Scan
open Condition (seek seekCount seekAt seekIn seekCountIn firstInRange inRange)
variable {l:MatchList}
/-! ## Looking at a part of a list -/
section
variable {test:Match→Bool}{stop:Int64}
lemma seek_eq_any (hs:∀x y:Match,stop<x.position → test x=false→
 x.position<y.position → test y=false)(ms:List Match)
 (h:(ms.map (·.position)).Pairwise (·<·)):seek test stop ms=ms.any test:=by
 induction ms with
 | nil=>rfl
 | cons m _ ih=>
  rw[map_cons,pairwise_cons,forall_mem_map]at h
  rw[seek,any_cons]
  cases ht:test m with
  | true=>rfl
  | false=>
   rw[if_neg nofun,Bool.false_or]
   split
   ·next hp=>
    symm
    rw[any_eq_false]
    exact fun y hy=>Bool.eq_false_iff.1 (hs m y hp ht (h.1 y hy))
   ·exact ih h.2
lemma seekCount_eq_countP (hs:∀x:Match,stop<x.position→test x=false)(ms:List Match)
 (h:(ms.map (·.position)).Pairwise (·<·)):seekCount test stop ms=ms.countP test:=by
 induction ms with
 | nil=>rfl
 | cons m _ ih=>
  rw[map_cons,pairwise_cons,forall_mem_map]at h
  rw[seekCount,countP_cons]
  split
  ·grind
  ·rw[ih h.2,add_comm]
end
/-- What is asked about a list is answered as if all of it were looked at. -/
structure MatchList.Answers (l:MatchList):Prop where
 at_:∀p,seekAt p l.toList=l.toList.any (·.position==p)
 in_:∀lo hi,seekIn lo hi l.toList=l.toList.any (inRange lo hi)
 first:∀lo hi,firstInRange lo hi l.toList=l.toList.any (inRange lo hi)
 count:∀lo hi,seekCountIn lo hi l.toList=l.toList.countP (inRange lo hi)

/-- The positions increase, every cell is linked to the one before it and the one behind it, the ends are the first and
the last cell, and the cells are counted. -/
structure MatchList.Canonical (l:MatchList):Prop where
 increasing:(l.toList.map (·.position)).Pairwise (·<·)
 count:l.count=l.toList.length
 head:l.head=l.keys.head?
 tail:l.tail=l.keys.getLast?
 distinct:l.keys.Nodup
 next:∀i k,l.keys[i]?=some k→(l.cell k).next=l.keys[i+1]?
 prev:∀i k,l.keys[i]?=some k→(l.cell k).prev=if i=0 then none else l.keys[i-1]?
lemma MatchList.Ordered.canonical (h:l.Ordered):l.Canonical where
 increasing:=h
 count:=LinkedList.length_toList.symm
 head:=l.linked.head
 tail:=l.linked.tail
 distinct:=l.linked.nodup
 next i k hk:=by rw[l.linked.segment.next_eq hk,Option.or_none]
 prev i k hk:=l.linked.segment.prev_eq hk
lemma inRange_past {lo hi:Int64}{x:Match}(h:hi<x.position):inRange lo hi x=false:=by simp[inRange,Int64.not_le.2 h]
lemma MatchList.Ordered.answers (h:l.Ordered):l.Answers where
 at_ p:=by
  refine seek_eq_any (fun x y hx _ hxy=>?_) _ h
  exact beq_false_of_ne (Int64.ne_of_lt (Int64.lt_trans hx hxy)).symm
 in_ lo hi:=by
  exact seek_eq_any (fun x y hx _ hxy=>inRange_past (Int64.lt_trans hx hxy)) _ h
 first lo hi:=by
  refine seek_eq_any (fun x y hx ho hxy=>inRange_past ?_) _ h
  have hlo:lo≤x.position:=Int64.le_of_lt hx
  have hhi:hi<x.position:=by simpa[inRange,hlo,Int64.not_le]using ho
  exact Int64.lt_trans hhi hxy
 count lo hi:=by
  exact seekCount_eq_countP (fun x hx=>inRange_past hx) _ h

/-! ## Keeping the order -/
lemma MatchList.Among.ordered {l':MatchList}(h:l.Among l')(hl:l.Ordered):l'.Ordered:=by
 have hp:(l'.toList.map (·.position)).Sublist (l.toList.map (·.position)):=by
  have hm:=h.map (·.position)
  rwa[map_map,map_map]at hm
 exact hl.sublist hp
structure Findings.Ordered (f:Findings):Prop where
 confirmed:∀k,(f.of k).Ordered
 pending:∀k,(f.waiting k).Ordered
namespace Findings.Ordered
variable {f:Findings}
lemma confirm (h:f.Ordered)(s:RuleString)(m:Match)(r:Bool):(f.confirm s m r).2.Ordered:=by
 refine⟨fun k=>?_,h.pending⟩
 rcases f.of_confirm s m r k with heq|⟨-,heq⟩
 ·exact heq▸h.confirmed k
 ·exact heq▸(h.confirmed k).insert m r
lemma wait (h:f.Ordered)(i:Nat)(m:Match):(f.wait i m).2.Ordered:=by
 refine⟨h.confirmed,fun k=>?_⟩
 rcases f.waiting_wait i m k with heq|⟨-,heq⟩
 ·exact heq▸h.pending k
 ·exact heq▸(h.pending k).insert m false
lemma accept (h:f.Ordered)(set:RuleSet)(r:Int)(s:RuleString)(b:Block)
 (o l:Nat)(w:Bool)(key:UInt8):
 (accept set r s b o l w key f).2.Ordered:=by
 have hk:Keeps set r s (found r s b o l key) Ordered:=
  ⟨fun hf hn=>⟨hf.confirmed,fun k=>(hn.among k).ordered (hf.pending k)⟩,fun hf=>hf.wait _ _,
   fun hf=>hf.confirm _ _ _,fun _ hf _ _=>hf.confirm _ _ _⟩
 exact (hk.accept w h).2
lemma empty (set:RuleSet):(Findings.empty set).Ordered:=by
 have hl (k n:Nat):MatchList.Ordered ((Array.replicate n (.empty:MatchList)).getD k .empty):=by
  rw[Array.getD_eq_getD_getElem?,Array.getElem?_replicate]
  split<;>exact Pairwise.nil
 exact⟨fun k=>hl k _,fun k=>hl k _⟩
end Findings.Ordered
namespace Scanner
lemma finish_findings (x:Scanner)(cfg:Configuration)(listener:Listener)(c:ResultCode)
 (τ:Source)(q:Progress)(e:Int64):
 let f:=(x.finish cfg listener c τ q e).scanner.findings
 f=q.findings∨f=Findings.empty x.set:=by
 unfold finish
 split
 ·exact .inr rfl
 split
 ·split
  ·exact .inl rfl
  ·exact .inr rfl
 ·obtain⟨o,hs⟩:=conclude_objects
   ⟨x.set,x.mask,x.objects,e,Findings.empty x.set,q.culprit⟩ cfg listener τ q e
  rw[hs]
  exact .inr rfl

/-- When the blocks have been searched, in any order, the matches of every string, confirmed or waiting, are in the order
of their positions, no two at the same one, and linked and counted in this order. What conditions ask is answered from
the front of a list as from all of it. -/
theorem scan_ordered (x:Scanner) (cfg:Configuration) (listener:Listener) (source:Source)
 (hx:x.findings.Ordered) : ∃ code τ q e,
 Passes (x.searchSetting cfg listener) x.flags.memory (x.outset source).1 (x.outset source).2
  x.entryPoint code τ q e ∧
 x.scan cfg (some listener) source = x.finish cfg listener code τ q e ∧
 (∀ k,(q.findings.of k).Canonical ∧ (q.findings.waiting k).Canonical ∧ (q.findings.of k).Answers) ∧
 (x.scan cfg (some listener) source).scanner.findings.Ordered := by
 obtain⟨code,τ,q,e,hpass,hscan⟩:=x.scan_eq_finish cfg listener source
 have hst:(x.outset source).2.findings.Ordered:=by
  unfold outset
  split
  ·exact hx
  ·exact⟨hx.confirmed,hx.pending⟩
 obtain⟨hq,-⟩:=hpass.keeps (I:=Findings.Ordered) (fun _ _ _ j=>⟨fun _=>id,
  fun h h' hf=>h' (h hf),fun f offset length wide key _ _ hf=>hf.accept _ _ _ _ _ _ _ _⟩)
  (fun _ _ hf=>⟨hf.confirmed,hf.pending⟩) (fun _ _=>id) hst
 refine⟨code,τ,q,e,hpass,hscan,
  fun k=>⟨(hq.confirmed k).canonical,(hq.pending k).canonical,(hq.confirmed k).answers⟩,?_⟩
 rw[hscan]
 rcases x.finish_findings cfg listener code τ q e with heq|heq
 ·exact heq▸hq
 ·exact heq ▸ .empty x.set

/-- The block with the larger positions comes first. -/
theorem scan_ordered_parts :
 let x:=Scanner.create Session.twoParts
 let source:Source :=
  { blocks := #[⟨16,some ⟨#[97,99,98]⟩,none⟩,⟨0,some ⟨#[97,98]⟩,none⟩] }
 x.findings.Ordered∧∃code τ q e,
  Passes (x.searchSetting {} default) x.flags.memory (x.outset source).1 (x.outset source).2
   x.entryPoint code τ q e∧
  x.scan {} (some default) source=x.finish {} default code τ q e∧
  (∀ k,(q.findings.of k).Canonical∧(q.findings.waiting k).Canonical∧(q.findings.of k).Answers)∧
  (x.scan {} (some default) source).scanner.findings.Ordered:=
 ⟨.empty _,scan_ordered _ _ _ _ (.empty _)⟩
end Scanner
end PatternScan.Scan
