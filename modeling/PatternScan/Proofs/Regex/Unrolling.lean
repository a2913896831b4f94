import PatternScan.Proofs.Regex.Language
/-! A counted repetition can be written out as copies of its body, the last of them optional. -/
open List Relation
namespace PatternScan.Regex
open Limits (regexRepeat)
open Machine
variable {lo hi:Nat}{xs ys:List Node}
namespace Node
def counted (lo hi:Nat)(greedy:Bool):Node→Node
 | .any=>.gap lo hi greedy
 | e=>.range lo hi greedy e

/-- A repetition written out. Without an upper bound it ends with a repetition of any number. -/
def unrolled (lo hi:Nat)(greedy:Bool)(e:Node):List Node:=
 replicate lo e ++
  if hi=regexRepeat then [.star greedy e]
  else replicate (hi-lo) (counted 0 1 greedy e)

/-- Whether unrolling changes what is gone through again from the first address: forwards the first copy of the body,
backwards the last one. -/
def shifts (back:Bool)(lo hi:Nat):Node→Bool
 | .any=>hi=0
 | _=>
  if lo=0 then hi≠1&&hi≠regexRepeat
  else back&&(lo≠hi||hi=regexRepeat)
def leads (back:Bool)(before after:List Node):Bool:=
 if back then after.isEmpty else before.isEmpty

/-- One pattern is another one with one repetition unrolled. The flag says whether this may change what is gone
through again from the first address. -/
inductive Unrolls (back:Bool):Bool→Node→Node→Prop
 | here {before after:List Node}{lo hi:Nat}{greedy:Bool}{e:Node}:lo≤hi→
  hi≤regexRepeat→
  Unrolls back (leads back before after&&shifts back lo hi e)
   (.cat (before++([counted lo hi greedy e]++after)))
   (.cat (before++(unrolled lo hi greedy e++after)))
 | cat {before after:List Node}{shift:Bool}{n n':Node}:Unrolls back shift n n'→
  Unrolls back (leads back before after&&shift)
   (.cat (before++([n]++after))) (.cat (before++([n']++after)))
 | left {shift:Bool}{l l' r:Node}:Unrolls back shift l l'→
  Unrolls back false (.alt l r) (.alt l' r)
 | right {shift:Bool}{l r r':Node}:Unrolls back shift r r'→
  Unrolls back false (.alt l r) (.alt l r')
 | star {shift greedy:Bool}{e e':Node}:Unrolls back shift e e'→
  Unrolls back false (.star greedy e) (.star greedy e')
 | plus {greedy:Bool}{e e':Node}:Unrolls back false e e'→
  Unrolls back false (.plus greedy e) (.plus greedy e')
 | range {lo hi:Nat}{shift greedy:Bool}{e e':Node}:Unrolls back shift e e'→
  Unrolls back (shift&&(lo>0||!hasLoop lo hi)) (.range lo hi greedy e) (.range lo hi greedy e')
variable {v:Nat→Inst→Verdict}{back:Bool}
def seq (back:Bool)(R S:Nat→Nat→Prop):Nat→Nat→Prop:=
 if back then Comp S R else Comp R S
lemma spansList_append (xs ys:List Node):SpansList v back (xs++ys)=
 seq back (SpansList v back xs) (SpansList v back ys):=by
 induction xs with
 | nil=>rw[nil_append,seq,SpansList,comp_eq,eq_comp,ite_self]
 | cons n _ ih=>
  rw[cons_append,SpansList,SpansList,ih]
  cases back with
  | false=>simp only[seq,Bool.false_eq_true,if_false,comp_assoc]
  | true=>simp only[seq,if_true,comp_assoc]
lemma spansList_singleton (n:Node):SpansList v back [n]=n.Spans v back:=by
 rw[SpansList,SpansList,comp_eq,eq_comp,ite_self]
lemma spansList_replicate (n:Nat)(e:Node):
 SpansList v back (replicate n e)=Times (e.Spans v back) n:=by
 induction n with
 | zero=>rw[replicate_zero,SpansList,Times]
 | succ n ih=>
  have hb:Comp (Times (e.Spans v back) n) (e.Spans v back)=Times (e.Spans v back) (n+1):=by rw[times_add,times_one]
  rw[replicate_succ,SpansList,ih,hb,←Times,ite_self]
lemma spans_counted (hv:Limited v)(h:lo≤hi)(hhi:hi≤ regexRepeat)
 (g:Bool)(e:Node):(counted lo hi g e).Spans v back=Between (e.Spans v back) lo hi:=by
 cases e with
 | any=>exact spans_gap hv h hhi g
 | _=>exact spans_range h g _
lemma seq_between {R:Nat→Nat→Prop}{a b c d:Nat}(hab:a≤b)(hcd:c≤d):
 seq back (Between R a b) (Between R c d)=Between R (a+c) (b+d):=by
 rw[seq,comp_between hab hcd,comp_between hcd hab,add_comm c a,add_comm d b,ite_self]
lemma seq_times_reflTransGen (R:Nat→Nat→Prop)(n:Nat):
 seq back (Times R n) (ReflTransGen R)=Comp (Times R n) (ReflTransGen R):=by
 rw[seq,reflTransGen_comp_times,ite_self]
lemma seq_times_optional (hv:Limited v){k:Nat}(hk:k≤1)(hlo:k≤lo)(h:lo≤hi)(g:Bool)(e:Node):
 seq back (Times (e.Spans v back) (lo-k)) (SpansList v back
  (if hi=regexRepeat then [.star g e]
   else replicate (hi-lo) (counted 0 1 g e)))=
  Between (e.Spans v back) (lo-k) (hi-k):=by
 have hl:Limits.regexInput< regexRepeat:=by decide
 by_cases hhi:hi=regexRepeat
 ·rw[if_pos hhi,spansList_singleton,Spans,seq_times_reflTransGen]
  exact comp_times_reflTransGen (advances hv e).1 (by omega) (by omega)
 ·rw[if_neg hhi,spansList_replicate,spans_counted hv (Nat.zero_le 1) (by decide),
   times_between_zero_one,←between_self,seq_between le_rfl zero_le]
  congr 1
  omega
lemma spansList_unrolled (hv:Limited v)(h:lo≤hi)(g:Bool)(e:Node):
 SpansList v back (unrolled lo hi g e)=Between (e.Spans v back) lo hi:=by
 rw[unrolled,spansList_append,spansList_replicate]
 exact seq_times_optional hv (Nat.zero_le 1) (Nat.zero_le lo) h g e
lemma againList_singleton (n:Node):AgainList v back [n]=n.Again v back:=by
 rw[AgainList,SpansList,comp_eq]
 cases back<;>rfl
lemma againList_forwards (hxs:xs≠[])(ys:List Node):
 AgainList v false (xs++ys)=Comp (AgainList v false xs) (SpansList v false ys):=by
 cases xs with
 | nil=>exact absurd rfl hxs
 | cons n _=>
  rw[cons_append,AgainList,AgainList,spansList_append]
  simp only[seq,Bool.false_eq_true,if_false,comp_assoc]
lemma againList_backwards (xs:List Node)(hys:ys≠[]):
 AgainList v true (xs++ys)=Comp (AgainList v true ys) (SpansList v true xs):=by
 induction xs with
 | nil=>rw[nil_append,SpansList,comp_eq]
 | cons n ns ih=>
  have hne:(ns++ys).isEmpty=false:=by simp[hys]
  rw[cons_append,AgainList,SpansList,ih,hne]
  simp only[if_true,Bool.false_eq_true,if_false,comp_assoc]
lemma againList_eq_spansList (hxs:xs≠[])(h:∀n∈xs,n.Again v back=n.Spans v back):
 AgainList v back xs=SpansList v back xs:=by
 cases back with
 | false=>
  cases xs with
  | nil=>exact absurd rfl hxs
  | cons n _=>rw[AgainList,h n mem_cons_self];rfl
 | true=>
  induction xs with
  | nil=>exact absurd rfl hxs
  | cons n ns ih=>
   by_cases hns:ns=[]
   ·rw[hns,againList_singleton,spansList_singleton,h n mem_cons_self]
   ·have hne:ns.isEmpty=false:=by simp[hns]
    rw[AgainList,hne,ih hns fun m hm=>h m (mem_cons_of_mem _ hm)]
    rfl
section
variable {before after:List Node}(hsp:SpansList v back xs=SpansList v back ys)
include hsp
lemma againList_replace
 (hag:leads back before after→xs≠[]∧ys≠[]∧AgainList v back xs=AgainList v back ys):
 AgainList v back (before++(xs++after))=AgainList v back (before++(ys++after)):=by
 cases back with
 | false=>
  by_cases hb:before=[]
  ·obtain⟨hxs,hys,heq⟩:=hag (by rw[hb];rfl)
   rw[hb,nil_append,nil_append,againList_forwards hxs,againList_forwards hys,heq]
  ·rw[againList_forwards hb,againList_forwards hb,spansList_append,spansList_append,hsp]
 | true=>
  by_cases ha:after=[]
  ·obtain⟨hxs,hys,heq⟩:=hag (by rw[ha];rfl)
   rw[ha,append_nil,append_nil,againList_backwards _ hxs,againList_backwards _ hys,heq]
  ·rw[←append_assoc,←append_assoc,againList_backwards _ ha,
    againList_backwards _ ha,spansList_append,spansList_append,hsp]
lemma spansList_replace:SpansList v back (before++(xs++after))=
  SpansList v back (before++(ys++after)):=by
 rw[spansList_append,spansList_append,spansList_append,spansList_append,hsp]
end
section
variable {e:Node}
lemma unrolled_ne_nil (g:Bool)(h:lo≤hi)(hhi:hi≠0):unrolled lo hi g e≠[]:=by
 intro hn
 obtain⟨hc,hr⟩:=append_eq_nil_iff.1 hn
 have hlo:lo=0:=by simpa using hc
 split at hr
 ·cases hr
 ·have hno:hi-lo=0:=by simpa using hr
  omega
lemma again_counted_any (lo hi:Nat)(g:Bool):
 (counted lo hi g .any).Again v back=(counted lo hi g .any).Spans v back:=rfl
lemma againList_unrolled_any (hv:Limited v)(g:Bool)(h:lo≤hi)(hhi:hi≤ regexRepeat)(hp:hi≠0):
 AgainList v back [counted lo hi g .any]=AgainList v back (unrolled lo hi g .any):=by
 have hs:∀n∈unrolled lo hi g .any,n.Again v back=n.Spans v back:=by
  intro n hn
  rcases mem_append.1 hn with hn|hn
  ·rw[eq_of_mem_replicate hn]
   rfl
  ·split at hn
   ·rw[mem_singleton.1 hn]
    rfl
   ·rw[eq_of_mem_replicate hn]
    rfl
 rw[againList_eq_spansList (unrolled_ne_nil g h hp) hs,againList_singleton,
  again_counted_any,spansList_unrolled hv h,spans_counted hv h hhi]
lemma againList_unrolled_forwards (hv:Limited v)(g:Bool)(h:lo≤hi)(hlo:lo>0):
 (range lo hi g e).Again v false=AgainList v false (unrolled lo hi g e):=by
 obtain⟨n,rfl⟩:∃n,lo=n+1:=⟨lo-1,by omega⟩
 have hr:rest (n+1) hi (e.Spans v false)=seq false (Times (e.Spans v false) n)
  (SpansList v false (if hi=regexRepeat then [.star g e]
   else replicate (hi-(n+1)) (counted 0 1 g e))):=by
  rw[rest_eq h]
  exact (seq_times_optional hv le_rfl hlo h g e).symm
 rw[Again,hr,unrolled,replicate_succ,cons_append,AgainList,spansList_append,spansList_replicate]
 rfl
lemma againList_unrolled_backwards (g:Bool)(hlo:lo>0)(hhi:lo≠regexRepeat):
 (range lo lo g e).Again v true=AgainList v true (unrolled lo lo g e):=by
 obtain⟨n,rfl⟩:∃n,lo=n+1:=⟨lo-1,by omega⟩
 have hr:rest (n+1) (n+1) (e.Spans v true)=Times (e.Spans v true) n:=by
  rw[rest_eq le_rfl,if_pos hlo,Nat.add_sub_cancel,between_self]
 rw[Again,if_pos hlo,hr,unrolled,if_neg hhi,Nat.sub_self,replicate_zero,
  append_nil,replicate_succ',againList_backwards _ (cons_ne_nil _ _),againList_singleton,spansList_replicate]
lemma againList_unrolled (hv:Limited v)(g:Bool)(h:lo≤hi)
 (hhi:hi≤ regexRepeat)(hs:shifts back lo hi e=false):
 AgainList v back [counted lo hi g e]=AgainList v back (unrolled lo hi g e):=by
 by_cases ha:e=.any
 ·subst ha
  exact againList_unrolled_any hv g h hhi (by simpa[shifts]using hs)
 have hc:counted lo hi g e=.range lo hi g e:=by cases e<;>first | rfl | exact absurd rfl ha
 have hs:(if lo=0 then hi≠1&&hi≠regexRepeat
  else back&&(lo≠hi||hi=regexRepeat):Bool)=false:=by
  cases e<;>first | exact hs | exact absurd rfl ha
 by_cases hlo:lo=0
 ·subst hlo
  simp only[if_true,decide_not,Bool.and_eq_false_iff,Bool.not_eq_false', decide_eq_true_eq]at hs
  rcases hs with rfl|rfl
  ·rfl
  -- both have their start as first address
  have hst:unrolled 0 regexRepeat g e=[.star g e]:=by simp[unrolled]
  have hsp:(star g e).Spans v back=
   Between (e.Spans v back) 0 regexRepeat:=by
   rw[←spansList_unrolled hv h g e,hst,spansList_singleton]
  have hag:(range 0 regexRepeat g e).Again v back=
   (range 0 regexRepeat g e).Spans v back:=by
   have hl:hasLoop 0 regexRepeat:=by decide
   rw[Again,Spans,if_neg (lt_irrefl 0),if_neg (lt_irrefl 0),if_pos hl,eq_comp]
  rw[hst,againList_singleton,againList_singleton,hc,hag,spans_range h,←hsp]
  rfl
 rw[if_neg hlo]at hs
 rw[againList_singleton,hc]
 cases back with
 | false=>exact againList_unrolled_forwards hv g h (by omega)
 | true=>
  simp only[Bool.true_and,decide_not,Bool.or_eq_false_iff,Bool.not_eq_false',
   decide_eq_true_eq,decide_eq_false_iff_not]at hs
  obtain⟨rfl,hne⟩:=hs
  exact againList_unrolled_backwards g (by omega) hne
end
lemma Unrolls.spans_again (hv:Limited v){s:Bool}{n n':Node}
 (h:Unrolls back s n n'):n.Spans v back=n'.Spans v back∧
  (s=false→n.Again v back=n'.Again v back):=by
 induction h with
 | @here _ _ lo hi greedy e hlo hhi=>
  have hsp:SpansList v back [counted lo hi greedy e]=
   SpansList v back (unrolled lo hi greedy e):=by
   rw[spansList_singleton,spans_counted hv hlo hhi,spansList_unrolled hv hlo]
  refine⟨spansList_replace hsp,fun hs=>againList_replace hsp fun hl=>?_⟩
  rw[hl]at hs
  have hp:hi≠0:=by
   rintro rfl
   obtain rfl:lo=0:=by omega
   cases e<;>cases hs
  exact⟨cons_ne_nil _ _,unrolled_ne_nil greedy hlo hp,againList_unrolled hv greedy hlo hhi hs⟩
 | @cat _ _ _ n n' _ ih=>
  have hsp:SpansList v back [n]=SpansList v back [n']:=by rw[spansList_singleton,spansList_singleton,ih.1]
  refine⟨spansList_replace hsp,fun hs=>againList_replace hsp fun hl=>?_⟩
  rw[hl]at hs
  refine⟨cons_ne_nil _ _,cons_ne_nil _ _,?_⟩
  rw[againList_singleton,againList_singleton,ih.2 hs]
 | left _ ih=>exact⟨by rw[Spans,Spans,ih.1],fun _=>by rw[Again,Again,ih.1]⟩
 | right _ ih=>exact⟨by rw[Spans,Spans,ih.1],fun _=>by rw[Again,Again,ih.1]⟩
 | star _ ih=>exact⟨by rw[Spans,Spans,ih.1],fun _=>by rw[Again,Again,ih.1]⟩
 | plus _ ih=>exact⟨by rw[Spans,Spans,ih.1,ih.2 rfl],fun _=>by rw[Again,Again,ih.2 rfl]⟩
 | @range lo hi s _ e _ _ ih=>
  refine⟨by rw[Spans,Spans,ih.1],fun hs=>?_⟩
  rw[Again,Again,ih.1]
  by_cases hk:lo>0∨hasLoop lo hi=false
  ·have hs:s=false:=by
    rcases hk with hlo|hlp
    ·simpa[hlo]using hs
    ·simpa[hlp]using hs
   rw[ih.2 hs]
  ·rw[not_or,Bool.not_eq_false]at hk
   rw[if_neg hk.1,if_neg hk.1,if_pos hk.2,if_pos hk.2]
end Node
/-- Runs of a pattern before and after a repetition is unrolled report the same lengths, and where they stop at the
first match they agree on whether there is one. -/
theorem run_unrolled_agrees {p q:Pattern} {back shift:Bool}
 (h:Node.Unrolls back shift p.root q.root) (hp:p.root.steady back = true)
 (hq:q.root.steady back = true) {code code':Code} {entries entries':Array Entry}
 (hemit:p.emit back code entries = .ok (code',entries')) {c:Code}
 (hc:∀ x < code'.size,c.fetch x = code'.fetch x) {copy copy':Code}
 {copied copied':Array Entry} (hcopy:q.emit back copy copied = .ok (copy',copied'))
 {d:Code} (hd:∀ x < copy'.size,d.fetch x = copy'.fetch x) {f:RunFlags} {inp:Input}
 (hfirm:Firm c f inp code.size) (hfirm':Firm d f inp copy.size)
 (hok:(run c code.size f inp).result = .ok ()) (hok':(run d copy.size f inp).result = .ok ()) :
 (f.exhaustive=true → ∀ n,n ∈ (run c code.size f inp).lengths ↔
  n ∈ (run d copy.size f inp).lengths) ∧
 ((run c code.size f inp).lengths ≠ #[] ↔ (run d copy.size f inp).lengths ≠ #[]) := by
 obtain⟨hstd,hsize,-,-⟩:=Pattern.emit_stands hemit
 have hstd:=hstd.congr fun x _ hx=>hc x (by omega)
 obtain⟨hstd',hsize',-,-⟩:=Pattern.emit_stands hcopy
 have hstd':=hstd'.congr fun x _ hx=>hd x (by omega)
 have hent:p.root.Entry (look f inp) back code.size code.size _:=.start _ _
 have hent':q.root.Entry (look f inp) back copy.size copy.size _:=.start _ _
 rw[←(h.spans_again (limited_look f inp)).1]at hent'
 have hstdy:=hstd.steady hp hent hfirm
 have hstdy':=hstd'.steady hq hent' hfirm'
 constructor
 ·intro hex n
  rw[hstd.mem_run_iff hent hstdy hok hex,hstd'.mem_run_iff hent' hstdy' hok' hex]
 ·rw[hstd.run_ne_empty_iff hent hstdy hok,hstd'.run_ne_empty_iff hent' hstdy' hok']
def headed:Node:=
 .cat [.alt (.cat [.literal 97 true]) (.cat [.literal 98 true]),.star true (.literal 99 true)]
def words:Pattern:=⟨.cat [.star true (.cat [.range 2 4 true headed,.literal 100 true])],⟨false,false,true,false⟩⟩
def wordsUnrolled:Pattern:=
 ⟨.cat [.star true (.cat [headed,headed,.range 0 1 true headed,.range 0 1 true headed,.literal 100 true])],⟨false,false,true,false⟩⟩
def forwardFlags (exhaustive:Bool):RunFlags where
 backwards:=false
 exhaustive:=exhaustive
 wide:=false
 ignoreCase:=false
 search:=false
 dotAll:=false
def wordsInput:Input:=⟨⟨#[97,99,99,98,100,97,97,97,100,97]⟩,0⟩
theorem words_run_unrolled_agrees :
 9∈(run (words.code false) 0 (forwardFlags true) wordsInput).lengths∧
 ∀ n,n∈(run (words.code false) 0 (forwardFlags true) wordsInput).lengths ↔
  n∈(run (wordsUnrolled.code false) 0 (forwardFlags true) wordsInput).lengths:=by
 have hunrolls:Node.Unrolls false false words.root wordsUnrolled.root :=
  @Node.Unrolls.cat false [] [] _ _ _
   (.star (@Node.Unrolls.here false [] [.literal 100 true] 2 4 true headed (by decide) (by decide)))
 have hemit:words.emit false .empty #[]=.ok (words.code false,#[]):=rfl
 have hcopy:wordsUnrolled.emit false .empty #[]=.ok (wordsUnrolled.code false,#[]):=rfl
 have hok:(run (words.code false) 0 (forwardFlags true) wordsInput).result=.ok ():=by
  decide +kernel
 have hagree:=run_unrolled_agrees hunrolls (by decide) (by decide) hemit (fun _ _=>rfl) hcopy
  (fun _ _=>rfl) ((Pattern.emit_stands hemit).1.firm rfl (.start _ _))
  ((Pattern.emit_stands hcopy).1.firm rfl (.start _ _)) hok (by decide +kernel)
 exact⟨by decide +kernel,hagree.1 rfl⟩
def optional:Node:=.range 0 1 true (.literal 97 true)
def dots:Node:=.alt (.cat [.any,.any,.any]) (.cat [.any])

/-- Not all repetitions can be unrolled: a branch is taken with the first of two counters only, a repetition goes back
behind an option that comes first, and a run that stops early takes matches in another order. -/
theorem run_unrolled_differs :
 let lengths (traits:Traits) (exhaustive:Bool) (parts:List Node) (data:Array UInt8):=
  (run (Pattern.code ⟨.cat parts,traits⟩ false) 0 (forwardFlags exhaustive) ⟨⟨data⟩,0⟩).lengths
 let all:=lengths ⟨false,false,true,false⟩ true
 let first:=lengths ⟨false,false,false,true⟩ false
 let b:Node:=.literal 98 true
 let ending:Node:=.alt (.cat [b]) (.cat [.stop])
 all [.range 4 4 true (.cat [optional]),b] #[98]=#[]∧
 all [.cat [optional],.cat [optional],.cat [optional],.cat [optional],b] #[98]=#[1]∧
 all [.plus true (.cat [.range 0 3 true (.literal 97 true),b])] #[97,98,98]=#[2,3]∧
 all [.plus true (.cat [optional,optional,optional,b])] #[97,98,98]=#[2]∧
 first [.range 0 3 false dots,ending] #[97,97,98,97,97,97,97,97,97]=#[3,9]∧
 first [.range 0 1 false dots,.range 0 1 false dots,.range 0 1 false dots,ending]
  #[97,97,98,97,97,97,97,97,97]=#[3]:=by
 decide +kernel
end PatternScan.Regex