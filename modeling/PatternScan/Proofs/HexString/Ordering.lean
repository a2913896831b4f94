import PatternScan.Proofs.HexString.Shape
import PatternScan.Proofs.Regex.Bounds
/-! As long as a gap with several ends is run from positions that are far enough apart, the positions are
sorted in the order in which the input is read. -/
open PatternScan.Regex.GapMachine.Place PatternScan.Limits
namespace PatternScan.HexString
open List
open Regex (Node Pattern Inst Code Entry RunFlags Input run)
open Regex.GapMachine (isByte Runnable OnBytes)
variable {n:Node}
/-- A row of instructions for bytes and gaps with a byte at both ends. -/
structure Enclosed (qs:List Inst):Prop where
 ne_nil:qs≠[]
 steps:∀q∈qs,isByte q=true∨∃lo hi g,q=.gap lo hi g
 first:∀q∈qs.head?,isByte q=true
 last:∀q∈qs.getLast?,isByte q=true
lemma Enclosed.runnable {qs:List Inst}(h:Enclosed qs):Runnable qs:=⟨h.steps,h.last⟩
lemma Enclosed.reverse {qs:List Inst}(h:Enclosed qs):Enclosed qs.reverse where
 ne_nil:=by simpa using h.ne_nil
 steps q hq:=h.steps q (mem_reverse.1 hq)
 first:=by
  rw[head?_reverse]
  exact h.last
 last:=by
  rw[getLast?_reverse]
  exact h.first
lemma IsByte.straight (h:IsByte n):n.Straight∧Enclosed n.row:=by
 have ho:∀q:Inst,isByte q→Enclosed [q]:=fun q hq=>by
  refine⟨cons_ne_nil _ _,fun p hp=>?_,fun p hp=>?_,fun p hp=>?_⟩
  ·rw[mem_singleton.1 hp]
   exact .inl hq
  ·cases hp
   exact hq
  ·cases hp
   exact hq
 cases n with
 | literal | notLiteral | masked | maskedNot | any=>exact⟨trivial,ho _ rfl⟩
 | _=>exact h.elim
lemma rowList_append (xs ys:List Node):Node.rowList (xs++ys)=Node.rowList xs++Node.rowList ys:=by
 induction xs with
 | nil=>rfl
 | cons n _ ih=>rw[cons_append,Node.rowList,Node.rowList,ih,append_assoc]
lemma straight_cat {p:List Node}(hne:p≠[])
 (hit:∀n∈p,isGap n=false→n.Straight∧Enclosed n.row)
 (hj:∀n∈p,isGap n=true→n.Straight)
 (hh:∀n∈p.head?,isGap n=false)(hl:∀n∈p.getLast?,isGap n=false):
 (Node.cat p).Straight∧Enclosed (Node.cat p).row:=by
 refine⟨(Node.straightList_iff _).2 fun n hn=>?_,?_⟩
 ·cases hg:isGap n with
  | true=>exact hj n hn hg
  | false=>exact (hit n hn hg).1
 obtain⟨n,ns,rfl⟩:=exists_cons_of_ne_nil hne
 obtain⟨-,hn⟩:=hit n mem_cons_self (hh n rfl)
 have hr:(Node.cat (n::ns)).row=n.row++Node.rowList ns:=rfl
 refine⟨?_,?_,?_,?_⟩
 ·exact append_ne_nil_of_left_ne_nil hn.ne_nil _
 ·have hst:∀ms:List Node,(∀m∈ms,m∈n::ns)→∀q∈Node.rowList ms,isByte q=true∨∃lo hi g,q=.gap lo hi g:=by
   intro ms
   induction ms with
   | nil=>exact fun _=>nofun
   | cons m ms ih=>
    intro hms q hq
    rcases mem_append.1 hq with hq|hq
    ·cases hg:isGap m with
     | true=>
      cases m with
      | gap lo hi g=>exact .inr ⟨_,_,_,mem_singleton.1 hq⟩
      | _=>cases hg
     | false=>exact (hit m (hms m mem_cons_self) hg).2.steps q hq
    ·exact ih (fun m' hm'=>hms m' (mem_cons_of_mem _ hm')) q hq
  exact hst _ fun _ hm=>hm
 ·rw[hr,head?_append_of_ne_nil _ hn.ne_nil]
  exact hn.first
 obtain⟨ms,m,hs⟩:∃ms m,n::ns=ms++[m]:=
  ⟨_,_,(dropLast_append_getLast (cons_ne_nil n ns)).symm⟩
 have hm:isGap m=false:=hl m (by rw[hs,getLast?_append_cons];rfl)
 obtain⟨-,hm⟩:=hit m (by rw[hs];simp) hm
 have hr:(Node.cat (n::ns)).row=Node.rowList ms++m.row:=by
  rw[hs]
  change Node.rowList _=_
  rw[rowList_append,Node.rowList,Node.rowList,append_nil]
 rw[hr,getLast?_append_of_ne_nil _ hm.ne_nil]
 exact hm.last
lemma unbranchedList_iff (ns:List Node):Node.unbranchedList ns↔∀n∈ns,n.unbranched:=by
 induction ns with
 | nil=>simp[Node.unbranchedList]
 | cons n _ ih=>simp[Node.unbranchedList,ih]
lemma IsJump.straight {ns:Bool}(h:IsJump ns n)
 (hsh:∀lo hi g,n=.gap lo hi g→lo≤chainingGap∧hi≤chainingGap):
 n.Straight:=by
 have hl:chainingGap<unbounded:=by decide
 have hc:chainingGap<65536:=by decide
 cases n with
 | gap lo hi g=>
  obtain⟨hlo,hhi⟩:=hsh lo hi g rfl
  exact⟨h.2.1.resolve_right (by omega),by omega⟩
 | _=>exact h.elim
lemma Shaped.straight {n:Node}(h:Shaped true n)(hn:n.unbranched=true):n.Straight∧Enclosed n.row:=by
 suffices ha:∀{nested:Bool}{n:Node},Shaped nested n→nested=true→
  n.unbranched=true→n.Straight∧Enclosed n.row from ha h rfl hn
 intro nested n h
 induction h with
 | byte h=>exact fun _ _=>h.straight
 | cat hne hit hj hh hl ih=>
  intro hns hn
  have hn:=(unbranchedList_iff _).1 hn
  refine straight_cat hne (fun n hm hg=>ih n hm hg rfl (hn n hm)) ?_ hh hl
  intro n hm hg
  refine (hj n hm hg).straight ?_
  rintro lo hi g rfl
  exact (hj _ hm hg).2.2 hns
 | alt=>exact fun _ hn=>absurd hn Bool.false_ne_true
lemma findCut_eq_none (p:List Node):∀done,Node.findCut done p=none→
 ∀l r lo hi,p=l++.gap lo hi false::r→done++l≠[] → r≠[]→
 lo≤chainingGap∧hi≤chainingGap:=by
 induction p with
 | nil=>
  intro done _ l r lo hi hs
  exact absurd hs (by simp)
 | cons n p ih=>
  intro done hn l r lo hi hs hl hr
  have hne:Node.findCut (n::done) p=none∧(∀lo hi,n=.gap lo hi false→
   done≠[]→p≠[]→lo≤chainingGap∧hi≤chainingGap):=by
   unfold Node.findCut at hn
   split at hn
   ·cases ‹_::_=[]›
   ·rename_i lo hi rs heq
    cases heq
    split at hn
    ·cases hn
    ·rename_i hsh
     refine⟨hn,?_⟩
     rintro _ _ ⟨⟩ hdo hre
     simpa[hdo,hre]using hsh
   grind
  cases l with
  | nil=>
   cases hs
   exact hne.2 lo hi rfl (by simpa using hl) hr
  | cons m l=>
   cases hs
   exact ih (n::done) hne.1 l r lo hi rfl (by simp) hr
lemma Shaped.straight_of_split {p:Pattern}(h:Shaped false p.root)
 (hp:p.root.unbranched)(hs:p.split.2=none):
 p.root.Straight∧Enclosed p.root.row:=by
 obtain⟨root,traits⟩:=p
 cases h with
 | byte h=>exact h.straight
 | alt=>exact absurd hp Bool.false_ne_true
 | cat hne hit hj hh hl=>
  rename_i pr
  have hp:=(unbranchedList_iff _).1 hp
  have hc:Node.findCut [] pr=none:=by
   unfold Pattern.split at hs
   dsimp only at hs
   split at hs
   ·cases hs
   ·assumption
  refine straight_cat hne (fun n hn hg=>(hit n hn hg).straight (hp n hn)) ?_ hh hl
  intro n hn hg
  refine (hj n hn hg).straight ?_
  rintro lo hi g rfl
  obtain rfl:g=false:=(hj _ hn hg).1
  obtain⟨l,r,rfl⟩:=append_of_mem hn
  refine findCut_eq_none _ [] hc l r lo hi rfl ?_ ?_
  ·rintro rfl
   exact absurd (hh _ rfl) Bool.false_ne_true.symm
  ·rintro rfl
   exact absurd (hl _ (getLast?_append_cons _ _ _)) Bool.false_ne_true.symm

/-- For a hexadecimal string without alternatives that is not cut, the gap machine reports the same
lengths as the machine with threads, in both directions. -/
theorem gapMachine_run_agrees {text:Bytes} {p:Pattern} (hread:read text = .ok p)
 (hlinear:p.root.unbranched=true) (hsplit:p.split.2=none) {back:Bool}
 {code code':Code} {entries entries':Array Entry}
 (hemit:p.emit back code entries = .ok (code',entries')) {c:Code}
 (hc:∀ x < code'.size,c.fetch x = code'.fetch x) {f:RunFlags} (hf:OnBytes f)
 {inp:Input} (hok:(run c code.size f inp).result = .ok ()) :
 (Regex.GapMachine.run c code.size f inp).result = .ok () ∧
 (f.exhaustive=true → ∀ n,n ∈ (Regex.GapMachine.run c code.size f inp).lengths ↔
  n ∈ (run c code.size f inp).lengths) ∧
 ((Regex.GapMachine.run c code.size f inp).lengths ≠ #[] ↔
  (run c code.size f inp).lengths ≠ #[]) := by
 obtain⟨hstrt,henclosed⟩:=(read_shaped text p hread).1.straight_of_split hlinear hsplit
 obtain⟨hstd,hsize,-,-⟩:=Pattern.emit_stands hemit
 have hstd:=hstd.congr fun x _ hx=>hc x (by omega)
 have hrunnable:Runnable (p.root.codeRow back):=by
  unfold Node.codeRow
  split
  ·exact henclosed.reverse.runnable
  ·exact henclosed.runnable
 have hlists:c.Lists code.size (p.root.codeRow back++[Inst.accept]):=by
  refine (Code.lists_append _ _).mpr ⟨hstrt.lists _ _ hstd.laid,?_,trivial⟩
  have hrow:Regex.rowSize (p.root.codeRow back)=p.root.codeSize:=by
   unfold Node.codeRow
   rw[hstrt.codeSize_eq]
   split
   ·exact Regex.rowSize_reverse _
   ·rfl
  rw[hrow]
  exact hstd.accept
 have hent:p.root.Entry (Regex.look f inp) back code.size code.size
  (p.root.Spans (Regex.look f inp) back):=.start _ _
 rw[hstrt.spans_eq]at hent
 have hstdy:=hstd.steady (hstrt.steady back).1 hent (hstd.firm (hstrt.steady back).2 hent)
 have hstarts:∀ i,Regex.Starts f inp i↔i=0:=by
  intro i
  simp[Regex.Starts,hf.search]
 obtain⟨hgap,hsnd,hall,hany⟩:=hf.run_spec inp hrunnable hlists
 refine⟨hgap,fun hex n=>Iff.trans ⟨hsnd n,hall hex n⟩ ?_,hany.trans ?_⟩
 ·rw[hstd.mem_run_iff hent hstdy hok hex,hf.width_eq]
  simp[hstarts]
 ·rw[hstd.run_ne_empty_iff hent hstdy hok]
  simp[hstarts]
def spaced:Pattern:=
 (read ⟨#[123,48,49,91,49,45,50,93,48,50,125]⟩).toOption.get (by decide +kernel)
def spacedCode:Code×Array Entry:=
 (spaced.emit true .empty #[]).toOption.get (by decide +kernel)
def backwardsFlags:RunFlags where
 backwards:=true
 exhaustive:=true
 wide:=false
 ignoreCase:=false
 search:=false
 dotAll:=true
def spacedInput:Input:=⟨⟨#[1,1,0,2]⟩,4⟩
theorem gapMachine_run_agrees_spaced :
 (run spacedCode.1 0 backwardsFlags spacedInput).lengths=#[3,4]∧
 ∀ n,n∈(Regex.GapMachine.run spacedCode.1 0 backwardsFlags spacedInput).lengths ↔
  n∈(run spacedCode.1 0 backwardsFlags spacedInput).lengths:=by
 have hok:(run spacedCode.1 0 backwardsFlags spacedInput).result=.ok ():=by decide +kernel
 have hsplit:spaced.split.2=none:=Option.isNone_iff_eq_none.mp (by decide +kernel)
 have hagree:=gapMachine_run_agrees (eq_ok_get _) (by decide +kernel) hsplit (eq_ok_get _)
  (fun _ _=>rfl) ⟨rfl,rfl,rfl,rfl⟩ hok
 exact⟨by decide +kernel,hagree.2.1 rfl⟩
end PatternScan.HexString
namespace PatternScan.Regex.GapMachine
open List
variable {s:Setting}{q next:Inst}{r i lo hi:Nat}{rest:List Position}
/-! ## Where an instruction leads -/
/-- The ends of a gap at a place that are added to the list: those behind the first one at which the next
instruction may read. -/
def endsFrom (s:Setting)(next:Inst)(i n:Nat):List Nat:=
 (range' i n).filter fun j=>decide (j<s.reach)&&s.promising next (s.indexAt j)
def ends (s:Setting)(next:Inst)(lo hi i:Nat):List Nat:=endsFrom s next (i+(lo+1)) (hi-lo)
def onward (s:Setting)(q next:Inst)(i:Nat):List Nat:=
 match q with
 | .gap lo hi _=>if i+lo≥s.reach then [] else (i+lo)::ends s next lo hi i
 | q=>if i<s.reach∧readsByte s q (s.indexAt i) then [i+1] else []
def placed (s:Setting)(r:Nat)(is:List Nat):List Position:=is.map fun i=>⟨s.indexAt i,r⟩
/-- The lengths of a gap that has several. -/
def window:Inst→Option (Nat×Nat)
 | .gap lo hi _=>if lo<hi then some (lo,hi) else none
 | _=>none

/-- A gap with several ends is run from positions that are further apart than it is long. Backwards it adds one end at
most, and only at the last position. -/
def Apart (s:Setting)(q next:Inst)(ps:List Position):Prop:=
 ∀w∈window q,ps.Pairwise (fun p p'=>s.readBefore p.index+w.2<s.readBefore p'.index)∧
  (s.backwards=true→ps.Pairwise (fun p _=>ends s next w.1 w.2 (s.readBefore p.index).toNat=[])∧
   ∀p∈ps,(ends s next w.1 w.2 (s.readBefore p.index).toNat).length≤1)
instance (ps:List Position):Decidable (Apart s q next ps):=by unfold Apart;infer_instance
lemma endsFrom_succ (i n:Nat):endsFrom s next i (n+1)=
 if i<s.reach∧s.promising next (s.indexAt i) then i::endsFrom s next (i+1) n else endsFrom s next (i+1) n:=by
 simp only[endsFrom,range'_succ,filter_cons,Bool.and_eq_true,decide_eq_true_eq]
lemma endsFrom_of_reach_le {n:Nat}(h:s.reach ≤ i):endsFrom s next i n=[]:=by
 refine filter_eq_nil_iff.2 fun j hj=>?_
 rw[mem_range'_1]at hj
 simp only[Bool.and_eq_true,decide_eq_true_eq]
 omega
lemma mem_ends {j:Nat}(h:j∈ends s next lo hi i):i+lo<j∧j ≤ i+hi:=by
 have hj:=mem_range'_1.1 (mem_of_mem_filter h)
 omega
lemma length_ends_le (next:Inst)(lo hi i:Nat):(ends s next lo hi i).length ≤ s.reach:=by
 have hs:ends s next lo hi i⊆range s.reach:=fun j hj=>by
  have:=(mem_filter.1 hj).2
  simp only[Bool.and_eq_true,decide_eq_true_eq]at this
  exact mem_range.2 this.1
 have hle:=(subperm_of_subset (Nodup.filter _ (nodup_range' 1)) hs).length_le
 rwa[length_range]at hle
lemma onward_byte (hq:∀lo hi g,q≠.gap lo hi g)(i:Nat):
 onward s q next i=if i<s.reach∧readsByte s q (s.indexAt i) then [i+1] else []:=by
 cases q<;>first | rfl | exact absurd rfl (hq _ _ _)
lemma indexAt_lt (h:s.backwards=false){i j:Nat}(hij:i<j):s.indexAt i<s.indexAt j:=by
 simp only[Setting.indexAt,h]
 norm_num
 omega

/-! ## What a gap adds to the list -/
lemma Place.advance_none {i:Int}{place:Place}(h:∀q∈place.ahead,i<q.index):
 advance i place.current place.passed place.ahead=place:=by
 obtain⟨c,p,ahead⟩:=place
 cases ahead with
 | nil=>rfl
 | cons q _=>exact if_neg (h q mem_cons_self).not_ge
lemma addPositions_idle (n:Nat):∀j place,endsFrom s next (i+j) n=[]→
 (addPositions s next ⟨s.indexAt i,r⟩ i n j place).positions=place.positions:=by
 induction n with
 | zero=>exact fun _ _ _=>rfl
 | succ n ih=>
  intro j place h
  rw[endsFrom_succ]at h
  have hp:=positions_advance (s.indexAt (i+j)) place.ahead place.current place.passed
  split at h
  ·cases h
  next hn=>
  rw[addPositions,s.indexAt_add]
  split
  ·rfl
  dsimp only
  split
  ·exact (ih _ _ h).trans hp
  split
  ·exact (ih _ _ h).trans hp
  ·next hr _ hpr=>
   refine absurd ⟨by omega,?_⟩ hn
   simpa using hpr
/-- The end inserted before this one, if there is one, is passed, and no other position. -/
lemma advance_fresh {n:Int}{c:Position}{fresh:List Position}(passed:List Position)(hone:fresh=[]∨∃x,fresh=[x])
 (hfresh:∀q∈fresh,q.index<n)(hc:c.index<n)(hrest:∀q∈rest,n<q.index):
 ∃c',c'.index<n∧advance n c passed (fresh++rest)=⟨c',fresh++passed,rest⟩:=by
 have hstop (c':Position)(l:List Position):advance n c' l rest=⟨c',l,rest⟩:=@advance_none _ ⟨c',l,rest⟩ hrest
 rcases hone with rfl|⟨x,rfl⟩
 ·exact⟨c,hc,hstop c passed⟩
 ·have hx:=hfresh x mem_cons_self
  refine⟨x,hx,?_⟩
  rw[cons_append,advance,if_pos hx.le]
  exact hstop x _

/-- Forwards the ends stand in order before all positions that are further away. -/
lemma addPositions_forwards (hb:s.backwards=false)(n:Nat):∀j c passed fresh,fresh.length≤1→
 (∀q∈fresh,q.index<s.indexAt (i+j))→c.index<s.indexAt (i+j)→
 (∀q∈rest,∀k<j+n,s.indexAt (i+k)<q.index)→
 (addPositions s next ⟨s.indexAt i,r⟩ i n j ⟨c,passed,fresh++rest⟩).positions=
  passed.reverse++fresh++placed s (r+1) (endsFrom s next (i+j) n)++rest:=by
 induction n with
 | zero=>
  intro j c passed fresh _ _ _ _
  simp[addPositions,positions,endsFrom,placed]
 | succ n ih=>
  intro j c passed fresh hlen hfresh hc hrest
  rw[addPositions,s.indexAt_add]
  split
  ·rw[endsFrom_of_reach_le (by omega)]
   simp[positions,placed]
  have hone:fresh=[]∨∃x,fresh=[x] :=
   (Nat.le_one_iff_eq_zero_or_eq_one.1 hlen).imp length_eq_zero_iff.1 length_eq_one_iff.1
  obtain⟨c',hc',ha⟩:=advance_fresh passed hone hfresh hc fun q hq=>hrest q hq j (by omega)
  have hnext:s.indexAt (i+j)<s.indexAt (i+(j+1)):=indexAt_lt hb (by omega)
  have hrest':∀q∈rest,∀k<j+1+n,s.indexAt (i+k)<q.index:=fun q hq k hk=>hrest q hq k (by omega)
  have hrev:(fresh++passed).reverse=passed.reverse++fresh:=by
   rcases hone with rfl|⟨x,rfl⟩<;>simp
  have hidle:=ih (j+1) c' (fresh++passed) [] zero_le (by simp) (hc'.trans hnext) hrest'
  have hmore:=ih (j+1) c' (fresh++passed) [⟨s.indexAt (i+j),r+1⟩] le_rfl
   (by simpa using hnext) (hc'.trans hnext) hrest'
  rw[nil_append,append_nil,hrev]at hidle
  rw[hrev]at hmore
  dsimp only
  rw[ha]
  rw[if_neg (by simp[hc'.ne])]
  rw[endsFrom_succ,Nat.add_assoc]
  split
  ·next hp=>
   rw[if_neg (by simp_all)]
   exact hidle
  ·next hr hp=>
   rw[if_pos ⟨by omega,by simpa using hp⟩]
   refine hmore.trans ?_
   simp[placed]
lemma addPositions_single (n:Nat):∀j,(endsFrom s next (i+j) n).length≤1→
 (addPositions s next ⟨s.indexAt i,r⟩ i n j ⟨⟨s.indexAt i,r⟩,[],[]⟩).positions=
  placed s (r+1) (endsFrom s next (i+j) n):=by
 induction n with
 | zero=>exact fun _ _=>rfl
 | succ n ih=>
  intro j h
  rw[endsFrom_succ]at h⊢
  rw[addPositions,s.indexAt_add]
  split
  ·rw[if_neg (by omega),endsFrom_of_reach_le (by omega)]
   rfl
  dsimp only [advance]
  rw[if_neg (by simp)]
  split
  ·next hp=>
   have hn:¬(i+j<s.reach∧s.promising next (s.indexAt (i+j))=true):=by simp_all
   rw[if_neg hn]at h⊢
   exact ih (j+1) h
  ·next hr hp=>
   have hy:i+j<s.reach∧s.promising next (s.indexAt (i+j))=true:=⟨by omega,by simpa using hp⟩
   rw[if_pos hy,length_cons]at h
   have hnil:endsFrom s next (i+j+1) n=[]:=length_eq_zero_iff.1 (by omega)
   rw[if_pos hy,addPositions_idle n (j+1) _ hnil,hnil]
   rfl
lemma spread_eq (h:ends s next lo hi i=[]∨(s.backwards=false∧∀q∈rest,∀k≤hi,s.indexAt (i+k)<q.index)∨
  rest=[]∧(ends s next lo hi i).length≤1):
 spread s next ⟨s.indexAt i,r⟩ lo hi rest=placed s (r+1) (ends s next lo hi i)++rest:=by
 rw[spread,s.readBefore_indexAt]
 change Place.positions _=_
 rcases h with h|⟨hb,h⟩|⟨rfl,h⟩
 ·rw[h]
  exact addPositions_idle _ _ _ h
 ·by_cases hlo:lo≤hi
  ·exact (addPositions_forwards hb (hi-lo) (lo+1) ⟨s.indexAt i,r⟩ [] [] zero_le (by simp) (indexAt_lt hb (by omega))
    fun q hq k hk=>h q hq k (by omega)).trans (by simp[ends])
  ·have hn:hi-lo=0:=by omega
   simp[ends,endsFrom,hn,addPositions,positions,placed]
 ·rw[append_nil]
  exact addPositions_single _ _ h

/-! ## A round -/
lemma sweep_passed (xs:List Position)(f:Nat):∀done,(∀x∈xs,x.round≠r)→
 sweep s q next r (xs.length+f) (xs++rest) done=sweep s q next r f rest (xs.reverse++done):=by
 induction xs with
 | nil=>
  intro done _
  rw[length_nil,Nat.zero_add]
  rfl
 | cons x xs ih=>
  intro done h
  rw[length_cons,Nat.succ_add,cons_append,sweep_later (h x mem_cons_self),
   ih _ fun y hy=>h y (mem_cons_of_mem _ hy),reverse_cons,append_assoc]
  rfl
lemma Apart.head {is:List Nat}(h:Apart s (.gap lo hi g) next (placed s r (i::is))):
 ends s next lo hi i=[]∨(s.backwards=false∧∀q∈placed s r is,∀k≤hi,s.indexAt (i+k)<q.index)∨
  placed s r is=[]∧(ends s next lo hi i).length≤1:=by
 by_cases hlo:lo<hi
 ·obtain⟨ha,hb⟩:=h (lo,hi) (by simp[window,hlo])
  simp only[placed,map_cons,pairwise_cons,forall_mem_cons,forall_mem_map,s.readBefore_indexAt,Int.toNat_natCast]at ha hb
  cases hd:s.backwards with
  | false=>
   refine .inr (.inl ⟨rfl,?_⟩)
   simp only[placed,forall_mem_map]
   intro i' hi' k hk
   have:=ha.1 i' hi'
   exact indexAt_lt hd (by omega)
  | true=>
   obtain⟨⟨hn,-⟩,ho,-⟩:=hb hd
   cases is with
   | nil=>exact .inr (.inr ⟨rfl,ho⟩)
   | cons i' _=>exact .inl (hn i' mem_cons_self)
 ·refine .inl ?_
  have hn:hi-lo=0:=by omega
  simp[ends,endsFrom,hn]
lemma Apart.tail {is:List Nat}(h:Apart s q next (placed s r (i::is))):Apart s q next (placed s r is):=by
 intro w hw
 obtain⟨ha,hb⟩:=h w hw
 refine⟨(pairwise_cons.1 ha).2,fun hd=>?_⟩
 obtain⟨hn,ho⟩:=hb hd
 exact⟨(pairwise_cons.1 hn).2,(forall_mem_cons.1 ho).2⟩
lemma sweep_placed (is:List Nat):∀f done,Apart s q next (placed s r is)→
 is.length*(s.reach+1)≤f→
 sweep s q next r f (placed s r is) done=done.reverse++placed s (r+1) (is.flatMap (onward s q next)):=by
 induction is with
 | nil=>
  intro f done _ _
  simp[placed,sweep]
 | cons i is ih=>
  intro f done h hf
  rw[length_cons,Nat.succ_mul]at hf
  obtain⟨f,rfl⟩:∃k,f=k+1:=⟨f-1,by omega⟩
  have hon:∀done',is.length*(s.reach+1)≤f→sweep s q next r f (placed s r is) done'=_:=
   fun done' hle=>ih f done' h.tail hle
  rw[flatMap_cons]
  change sweep s q next r (f+1) (⟨s.indexAt i,r⟩::placed s r is) done=_
  by_cases hq:∃lo hi g,q=.gap lo hi g
  ·obtain⟨lo,hi,g,rfl⟩:=hq
   rw[sweep_gap,onward]
   split
   ·exact hon done (by omega)
   have hle:=length_ends_le (s:=s) next lo hi i
   obtain⟨k,hk⟩:∃k,f=(placed s (r+1) (ends s next lo hi i)).length+k:=
    ⟨f-(ends s next lo hi i).length,by rw[placed,length_map];omega⟩
   rw[spread_eq h.head,hk,sweep_passed,ih k _ h.tail]
   ·simp[placed]
   ·rw[placed,length_map]at hk
    omega
   ·simp only[placed,forall_mem_map]
    exact fun _ _=>Nat.succ_ne_self r
  ·have hq':∀lo hi g,q≠.gap lo hi g:=fun lo hi g hg=>hq ⟨lo,hi,g,hg⟩
   rw[sweep_byte hq',onward_byte hq']
   split
   ·rw[hon _ (by omega)]
    simp[placed]
   ·exact hon done (by omega)
lemma mem_onward_gap {g:Bool}{j:Nat}(h:j∈onward s (.gap lo hi g) next i):i+lo≤j∧j ≤ i+max lo hi:=by
 rw[onward]at h
 split at h
 ·cases h
 rcases mem_cons.1 h with rfl|h
 ·omega
 ·have:=mem_ends h
  omega
lemma onward_sorted {is:List Nat}(hs:is.Pairwise (·<·))(h:Apart s q next (placed s r is)):
 (is.flatMap (onward s q next)).Pairwise (·<·):=by
 by_cases hq:∃lo hi g,q=.gap lo hi g
 ·obtain⟨lo,hi,g,rfl⟩:=hq
  refine pairwise_flatMap.2 ⟨fun i _=>?_,?_⟩
  ·rw[onward]
   split
   ·exact .nil
   ·exact .cons (fun j hj=>(mem_ends hj).1) ((pairwise_lt_range' 1).filter _)
  have hfar:is.Pairwise fun i i'=>i+max lo hi < i'+lo:=by
   by_cases hlo:lo<hi
   ·refine (pairwise_map.1 (h (lo,hi) (by simp[window,hlo])).1).imp fun {i i'} hlt=>?_
    simp only[s.readBefore_indexAt]at hlt
    omega
   ·exact hs.imp fun hlt=>by omega
  refine hfar.imp fun {i i'} hlt x hx y hy=>?_
  have:=mem_onward_gap hx
  have:=mem_onward_gap hy
  omega
 ·have hq':∀lo hi g,q≠.gap lo hi g:=fun lo hi g hg=>hq ⟨lo,hi,g,hg⟩
  refine pairwise_flatMap.2 ⟨fun i _=>?_,hs.imp fun {i i'} hlt x hx y hy=>?_⟩
  ·rw[onward_byte hq']
   split<;>simp
  ·rw[onward_byte hq']at hx hy
   grind

/-! ## Rounds -/
def before (s:Setting)(entry:Nat):Nat→Nat×List Position
 | 0=>(entry,[s.start])
 | r+1=>
  let (a,ps):=before s entry r
  let q:=s.code.fetch a
  (a+q.size,sweep s q (s.code.fetch (a+q.size)) r (sweepFuel s ps.length) ps [])
variable {entry:Nat}
lemma rounds_before (n:Nat)(h:∀k<r,(before s entry k).2≠[]∧s.code.fetch (before s entry k).1≠.accept):
 rounds s (n+r) entry 0 [s.start]=rounds s n (before s entry r).1 r (before s entry r).2:=by
 induction r generalizing n with
 | zero=>rfl
 | succ r ih=>
  obtain⟨hps,hq⟩:=h r (Nat.lt_succ_self r)
  have hb:=ih (n+1) fun k hk=>h k (hk.trans (Nat.lt_succ_self r))
  rw[rounds_inst hps rfl hq]at hb
  rw[add_right_comm]at hb
  exact hb
lemma before_due (s:Setting)(entry r:Nat):Due s r (before s entry r).2:=by
 induction r with
 | zero=>
  intro p hp
  rw[mem_singleton.1 hp,s.start_eq]
  exact⟨0,zero_le,rfl⟩
 | succ r ih=>exact ih.sweep _ _
/-- The instruction that is run in a round, and the one behind it. -/
def running (s:Setting)(entry k:Nat):Inst×Inst:=
 let a:=(before s entry k).1
 (s.code.fetch a,s.code.fetch (a+(s.code.fetch a).size))
lemma before_placed (h:∀k<r,Apart s (running s entry k).1 (running s entry k).2 (before s entry k).2):
 ∃is:List Nat,(before s entry r).2=placed s r is∧is.Pairwise (·<·):=by
 induction r with
 | zero=>exact⟨[0],by rw[before,s.start_eq];rfl,pairwise_singleton _ _⟩
 | succ r ih=>
  obtain⟨is,hps,hs⟩:=ih fun k hk=>h k (hk.trans (Nat.lt_succ_self r))
  have ha:=h r (Nat.lt_succ_self r)
  rw[hps]at ha
  refine⟨is.flatMap (onward s (running s entry r).1 (running s entry r).2),?_,onward_sorted hs ha⟩
  have hsw:=sweep_placed is (sweepFuel s is.length) [] ha (by rw[sweepFuel];nlinarith)
  rw[before]
  simp only[hps]
  rw[placed,length_map]
  exact hsw

/-- A run goes through the lists of `before`. As long as each gap with several ends is run from positions that are
further apart than it is long, and backwards adds one end at most, the list is sorted in the order in which the input
is read, and no place stands twice in it. -/
theorem positions_sorted (s:Setting) (entry r:Nat)
 (hgaps:∀k < r,Apart s (running s entry k).1 (running s entry k).2 (before s entry k).2) :
 (∀n,(∀k < r,(before s entry k).2≠[] ∧ s.code.fetch (before s entry k).1≠.accept) →
  rounds s (n+r) entry 0 [s.start]=rounds s n (before s entry r).1 r (before s entry r).2) ∧
 (∀p∈(before s entry r).2,∃ i ≤ s.reach,p=⟨s.indexAt i,r⟩) ∧
 (before s entry r).2.Pairwise fun p p'=>s.readBefore p.index < s.readBefore p'.index := by
 refine⟨rounds_before,before_due s entry r,?_⟩
 obtain⟨is,hps,hs⟩:=before_placed hgaps
 rw[hps]
 refine pairwise_map.2 (hs.imp fun hlt=>?_)
 rw[s.readBefore_indexAt,s.readBefore_indexAt]
 exact_mod_cast hlt
def settingFor (text data:Bytes)(pos:Nat)(back:Bool):Setting where
 code:=(((HexString.read text).toOption.bind fun p=>(p.emit back .empty #[]).toOption).map Prod.fst).getD .empty
 inp:=⟨data,pos⟩
 backwards:=back
 exhaustive:=true
/-- In `{41[0-10]42[0-1]43}` over `AxBxxBCC` the second gap is run from two positions. -/
def twoGaps:Setting:=
 settingFor ⟨#[123,52,49,91,48,45,49,48,93,52,50,91,48,45,49,93,52,51,125]⟩ ⟨#[65,120,66,120,120,66,67,67]⟩ 0 false
theorem positions_sorted_gaps :
 (before twoGaps 0 3).2.map (·.index)=[3,6] ∧ (before twoGaps 0 4).2.map (·.index)=[3,6,7] ∧
 (before twoGaps 0 4).2.Pairwise fun p p'=>twoGaps.readBefore p.index < twoGaps.readBefore p'.index:=
 ⟨by decide +kernel,by decide +kernel,(positions_sorted twoGaps 0 4 (by decide +kernel)).2.2⟩

/-- Backwards, the places are not met in the order of the list.  With two gaps, `{41[0-1]??[0-1]42}`
over `AxxBBB`, a place stands twice in it. -/
theorem positions_not_sorted :
 (before (settingFor ⟨#[123,52,49,91,48,45,51,93,52,50,125]⟩ ⟨#[65,65,65,65,66]⟩ 5 true) 0 2).2.map (·.index)=
  [3,0,1,2]∧
 (before (settingFor ⟨#[123,52,49,91,48,45,49,93,63,63,91,48,45,49,93,52,50,125]⟩
  ⟨#[65,120,120,66,66,66]⟩ 0 false) 0 4).2.map (·.index)=[2,3,3,4]:=by
 decide +kernel
end PatternScan.Regex.GapMachine
