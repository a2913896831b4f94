import PatternScan.Proofs.Condition.Compilation
import PatternScan.Proofs.Grammar.Moves
import PatternScan.Proofs.Rule.History
import PatternScan.Rule.Source
/-! The value that the compiler keeps of a constant expression, and the one that the code leaves. -/
open Int64 PatternScan.Grammar PatternScan.Condition.Expression PatternScan.Rule.Checked
namespace PatternScan.Rule.Action
variable {code:ResultCode}
/-! An action ensures something of its value and of the compiler if they have it whenever it succeeds.
-/
variable {α β:Type}{a:Action α}{c:Compiler}{Q R:α → Compiler→Prop}
def Ensures (a:Action α)(c:Compiler)(Q:α → Compiler→Prop):Prop:=
 ∀v c',a.run c=(.ok v,c')→Q v c'
lemma Ensures.mono (h:Ensures a c Q)(hqr:∀v c',Q v c'→R v c'):Ensures a c R:=
 fun v c' hr=>hqr v c' (h v c' hr)
@[simp]
lemma ensures_pure {v:α}:Ensures (pure v) c Q↔Q v c:=
 ⟨fun h=>h v c rfl,fun h _ _ hr=>by cases hr;exact h⟩
section
variable {k:α→Action β}{Q:β → Compiler→Prop}
@[simp]
lemma ensures_bind:Ensures (a >>= k) c Q↔Ensures a c fun u d=>Ensures (k u) d Q:=by
 constructor
 ·intro h u d ha v c' hk
  exact h v c' (run_bind_ok.2 ⟨u,d,ha,hk⟩)
 ·intro h v c' hr
  obtain⟨u,d,ha,hk⟩:=run_bind_ok.1 hr
  exact h u d ha v c' hk
lemma Ensures.after (h:∀u d,Ensures (k u) d Q):Ensures (a >>= k) c Q:=
 ensures_bind.2 fun u d _=>h u d
end
@[simp]
lemma ensures_map {f:α→β}{Q:β → Compiler→Prop}:Ensures (f <$> a) c Q↔Ensures a c fun v d=>Q (f v) d:=by
 rw[←bind_pure_comp,ensures_bind]
 simp only[ensures_pure]
@[simp]
lemma ensures_fail:Ensures (fail code:Action α) c Q:=
 fun _ _ hr=>nomatch hr
@[simp]
lemma ensures_failWith {d:String}:Ensures (failWith code d:Action α) c Q:=
 fun _ _ hr=>nomatch hr
lemma ensures_unless {bad:Action Unit}(hb:∀{Q},Ensures bad c Q){t:Bool}{k:Unit→Action α}
 (h:t=false→Ensures (k ()) c Q):Ensures (if t then bad >>= k else k ()) c Q:=by
 cases t with
 | false=>exact h rfl
 | true=>exact ensures_bind.2 hb
lemma require_ensures {e:Checked}{kn:List Kind}{op:String}:
 Ensures (require e kn op) c fun _ _=>kn.contains e.kind:=by
 unfold require
 split
 ·next h=>exact ensures_pure.2 h
 ·split
  all_goals with_reducible first
   | exact ensures_fail
   | exact Ensures.after fun _ _=>ensures_fail
end PatternScan.Rule.Action
namespace PatternScan.Condition
open Rule (Arithmetic BitOperator)
variable {x:Expression}{b':Int64}{a a' b:Int64}
def foldWord (f:Int64→Int64)(a:Int64):Int64:=
 if a != undefinedInteger then f a else undefinedInteger
def foldWords (f:Int64→Int64→Int64)(a b:Int64):Int64:=
 if a != undefinedInteger&&b != undefinedInteger then f a b else undefinedInteger
def foldShift (a b:Int64):Int64:=
 if b != undefinedInteger&&64≤b then 0 else foldWords (· <<< ·) a b
namespace Expression
def isConstant:Expression→Bool
 | .integer _=>true
 | .negative isFloat a=>!isFloat&&a.isConstant
 | .complement a=>a.isConstant
 | .arithmetic _ operands a b=>operands==.integers&&a.isConstant&&b.isConstant
 | .bits _ a b=>a.isConstant&&b.isConstant
 | _=>false
def folded:Expression→Int64
 | .integer v=>v
 | .negative _ a=>foldWord (- ·) a.folded
 | .complement a=>foldWord (~~~ ·) a.folded
 | .arithmetic op _ a b=>foldWords op.apply a.folded b.folded
 | .bits .remainder a b=>foldWords (·%·) a.folded b.folded
 | .bits .exclusive a b=>foldWords (· ^^^ ·) a.folded b.folded
 | .bits .conjunction a b=>foldWords (· &&& ·) a.folded b.folded
 | .bits .disjunction a b=>foldWords (· ||| ·) a.folded b.folded
 | .bits .shiftLeft a b | .bits .shiftRight a b=>foldShift a.folded b.folded
 | _=>0
def computed:Expression→Int64
 | .integer v=>v
 | .negative _ a=>foldWord (- ·) a.computed
 | .complement a=>foldWord (~~~ ·) a.computed
 | .arithmetic op _ a b=>foldWords (integerArithmetic op) a.computed b.computed
 | .bits op a b=>foldWords (bitOperation op) a.computed b.computed
 | _=>0
lemma isConstant_of_mem_parts {y:Expression}(hx:x.isConstant)(hy:y∈x.parts):
 y.isConstant:=by
 cases x with
 | negative | complement | arithmetic | bits=>
  simp only[isConstant,parts]at hx hy
  grind
 | integer v=>cases hy
 | _=>cases hx
lemma every_of_isConstant {p:Expression→Prop}(hp:∀x,x.isConstant→p x)(hx:x.isConstant):x.Every p:=by
 induction x using parts_induction with
 | h x ih=>exact .intro (hp x hx) fun y hy=>ih y hy (isConstant_of_mem_parts hx hy)
lemma fits_of_isConstant {set:RuleSet}(hx:x.isConstant):x.Fits set:=by cases x<;>trivial

/-- Where the compiler folds as the machine computes: not for shifts to the right or by 64 or more, nor for the
quotient and the remainder of the smallest word by minus one. -/
def FoldsAlike:Expression→Prop
 | .arithmetic .divide _ a b=>¬(a.folded=Int64.minValue∧b.folded=-1)
 | .bits .remainder a b=>¬(a.folded=Int64.minValue∧b.folded=-1)
 | .bits .shiftLeft a b=>64≤b.folded→a.folded≠undefinedInteger
 | .bits .shiftRight a b=>
  (64≤b.folded→a.folded≠undefinedInteger)∧(b.folded<64→a.folded <<< b.folded=a.folded >>> b.folded)
 | _=>True
def DividesByNonzero:Expression→Prop
 | .arithmetic .divide _ _ b=>b.folded≠0
 | .bits .remainder _ b=>b.folded≠0
 | _=>True
def ShiftsForward:Expression→Prop
 | .bits .shiftLeft _ b=>b.folded=undefinedInteger∨0≤b.folded
 | .bits .shiftRight _ b=>b.folded=undefinedInteger∨0≤b.folded
 | _=>True
end Expression
section
variable {S:Type}{e:Environment S}{matched:Array Bool}
lemma apply_one {i:Instruction}{o:List Cell}{c:Cell}{h n:Nat}
 {s:Array Cell}{w:S}(hr:result e matched i o w=some (c,w))
 (hh:h<e.capacity):
 apply e matched i o h ⟨n+1,s,w⟩=some (c,⟨n,s,w⟩):=by
 simp only[apply,bind,StateT.bind,tick,Option.bind_some,get,getThe,MonadStateOf.get,
  StateT.get,pure,hr,leave,if_pos hh]
 rfl
lemma bind_some_eq {α β:Type}{x:Evaluation S α}{k:α→Evaluation S β}{f f':Frame S}
 {a:α}(h:x f=some (a,f')):(x >>= k) f=k a f':=by
 simp only[bind,StateT.bind,h,Option.bind_some]
lemma result_constant (v:Int64)(w:S):result e matched (constant v) [] w=some (.integer v,w):=by
 unfold constant
 split
 ·next h=>
  rw[eq_of_beq h]
  rfl
 ·rfl
lemma isUndefined_integer (v:Int64):(Cell.integer v).isUndefined=!(v != undefinedInteger):=by
 simp[Cell.isUndefined,Cell.word,bne]
lemma eval_constant {x:Expression}(hx:x.isConstant)(frame h:Nat){m n:Nat}(s:Array Cell)(w:S)
 (hm:m=n+(x.code frame).length)(hh:h+(x.code frame).length≤e.capacity):
 x.eval e matched frame h ⟨m,s,w⟩=some (.integer x.computed,⟨n,s,w⟩):=by
 induction x using Expression.parts_induction generalizing h m n with
 | h x ih=>
  cases x with
  | integer v=>
   subst hm
   exact apply_one (result_constant v w) hh
  | negative _ a | complement a=>
   have iha:=ih a List.mem_cons_self (Expression.isConstant_of_mem_parts hx List.mem_cons_self) h (m:=m) (n:=n+1)
   simp only[Expression.code,List.length_append,List.length_singleton]at hm hh
   rw[Expression.eval,bind_some_eq (iha (by omega) (by omega))]
   refine apply_one ?_ (by omega)
   simp only[Expression.isConstant,Bool.and_eq_true,Bool.not_eq_true']at hx
   simp only[result,valueResult,unaryResult,isUndefined_integer,Expression.computed,foldWord,hx]
   cases a.computed != undefinedInteger<;>rfl
  | arithmetic op o a b | bits op a b=>
   have hp {y:Expression} (hy:y=a∨y=b):=ih y (by simpa[Expression.parts]using hy)
    (Expression.isConstant_of_mem_parts hx (by simpa[Expression.parts]using hy))
   have iha:=hp (.inl rfl) h (m:=m) (n:=n+1+(b.code frame).length)
   have ihb:=hp (.inr rfl) (h+1) (n:=n+1) rfl
   simp only[Expression.isConstant,Bool.and_eq_true,beq_iff_eq]at hx
   simp only[Expression.code,hx,Operands.conversion,List.append_nil,List.length_append,List.length_singleton]at hm hh
   rw[Expression.eval,bind_some_eq (iha (by omega) (by omega)),bind_some_eq (ihb (by omega))]
   try
    simp only[hx]
    change apply e matched (.arithmetic op .integer) [.integer a.computed,.integer b.computed] h ⟨n+1,s,w⟩=_
   refine apply_one ?_ (by omega)
   simp only[result,valueResult,binaryResult,isUndefined_integer,Expression.computed,foldWords]
   cases a.computed != undefinedInteger<;>cases b.computed != undefinedInteger<;>rfl
  | _=>cases hx
end
/-- Wherever some code stands, the machine goes through it in one step for each instruction and leaves a word. -/
def Leaves (is:List Instruction)(v:Int64):Prop:=
 ∀(S:Type) (e:Environment S) (s:State S) (ip:Nat) (stack:Array Cell) (n:Nat)
  (slots:Array Cell) (w:S),e.Regular→Segment e.set.code ip is→
  stack.size+is.length≤e.capacity → run e (n+is.length) (s.place ip stack ⟨n+is.length,slots,w⟩)=
    run e n (s.place (ip+is.length) (stack.push (.integer v)) ⟨n,slots,w⟩)
lemma leaves_computed (hx:x.isConstant)(frame:Nat):Leaves (x.code frame) x.computed:=by
 intro S e s ip stack n sl w hr hi hro
 have h:=x.compiles (s:=s) hr (Expression.every_of_isConstant (fun _=>Expression.fits_of_isConstant) hx) frame ip
  stack hi ⟨n+(x.code frame).length,sl,w⟩
 rw[eval_constant hx frame stack.size sl w rfl hro]at h
 exact h.1
def Guesses (known right:Int64):Prop:=known=undefinedInteger∨known=right
lemma Guesses.word {f:Int64→Int64}(h:Guesses a a'):Guesses (foldWord f a) (foldWord f a'):=by
 obtain rfl|rfl:=h
 ·exact .inl (by simp[foldWord])
 ·exact .inr rfl
lemma Guesses.words {f g:Int64→Int64→Int64}(ha:Guesses a a')(hb:Guesses b b')
 (hfg:a≠undefinedInteger→b≠undefinedInteger→f a b=g a b):
 Guesses (foldWords f a b) (foldWords g a' b'):=by
 by_cases hk:a≠undefinedInteger∧b≠undefinedInteger
 ·obtain rfl:=ha.resolve_left hk.1
  obtain rfl:=hb.resolve_left hk.2
  right
  simp only[foldWords,hfg hk.1 hk.2]
 ·left
  unfold foldWords
  rw[if_neg (by simpa using hk)]
lemma integerArithmetic_eq {op:Arithmetic}(h:op=.divide→b≠0∧¬(a=Int64.minValue∧b=-1)):
 op.apply a b=integerArithmetic op a b:=by
 cases op with
 | divide=>
  obtain⟨hz,hl⟩:=h rfl
  simp only[Arithmetic.apply,integerArithmetic]
  rw[if_neg (by simp[hz];tauto)]
 | _=>rfl
lemma Guesses.shift {op:BitOperator}(hop:op=.shiftLeft∨op=.shiftRight)
 (ha:Guesses a a')(hb:Guesses b b')
 (hf:b=undefinedInteger∨0≤b)(hfa:64≤b→a≠undefinedInteger)
 (hr:op=.shiftRight→b<64→a <<< b=a >>> b):
 Guesses (foldShift a b) (foldWords (bitOperation op) a' b'):=by
 unfold foldShift
 by_cases hc:(b != undefinedInteger&&decide (64≤b))
 ·rw[if_pos hc]
  simp only[Bool.and_eq_true,bne_iff_ne,decide_eq_true_eq]at hc
  have hk:=hfa hc.2
  obtain rfl:=ha.resolve_left hk
  obtain rfl:=hb.resolve_left hc.1
  right
  have hp:¬b<0:=Int64.not_lt.2 (hf.resolve_left hc.1)
  have hl:¬b<64:=Int64.not_lt.2 hc.2
  obtain rfl|rfl:=hop <;>
   simp only[foldWords,bne_iff_ne,ne_eq,Bool.and_eq_true,hk,hc.1,not_false_iff,
    and_self,if_true,bitOperation,hp,hl,if_false]
 rw[if_neg hc]
 refine ha.words hb fun _ hb'=>?_
 simp only[Bool.and_eq_true,bne_iff_ne,decide_eq_true_eq,not_and,Int64.not_le]at hc
 have hp:¬b<0:=Int64.not_lt.2 (hf.resolve_left hb')
 have hl:=hc hb'
 obtain rfl|rfl:=hop
 ·simp only[bitOperation,hp,hl,if_false,if_true]
 ·simp only[bitOperation,hp,hl]
  exact hr rfl hl
lemma folded_computed (hx:x.isConstant)
 (hl:x.Every Expression.FoldsAlike)(hdv:x.Every Expression.DividesByNonzero)
 (hs:x.Every Expression.ShiftsForward):Guesses x.folded x.computed:=by
 induction x using Expression.parts_induction with
 | h x ih=>
  have ih':∀y∈x.parts,Guesses y.folded y.computed:=fun y hy=>
   ih y hy (Expression.isConstant_of_mem_parts hx hy) (hl.part hy) (hdv.part hy) (hs.part hy)
  have hl:=hl.self
  have hdv:=hdv.self
  have hs:=hs.self
  cases x with
  | integer v=>exact .inr rfl
  | negative _ a=>exact (ih' a List.mem_cons_self).word
  | complement a=>exact (ih' a List.mem_cons_self).word
  | arithmetic _ _ a b=>
   refine (ih' a (by simp[Expression.parts])).words (ih' b (by simp[Expression.parts]))
    fun _ _=>integerArithmetic_eq ?_
   rintro rfl
   exact⟨hdv,hl⟩
  | bits op a b=>
   have iha:=ih' a (by simp[Expression.parts])
   have ihb:=ih' b (by simp[Expression.parts])
   cases op with
   | remainder=>
    refine iha.words ihb fun _ _=>?_
    have hz:b.folded≠0:=hdv
    simp only[bitOperation]
    rw[if_neg (by simp[hz];tauto)]
   | exclusive=>exact iha.words ihb fun _ _=>rfl
   | conjunction=>exact iha.words ihb fun _ _=>rfl
   | disjunction=>exact iha.words ihb fun _ _=>rfl
   | shiftLeft=>exact iha.shift (.inl rfl) ihb hs hl (by simp)
   | shiftRight=>exact iha.shift (.inr rfl) ihb hs hl.1 fun _=>hl.2
  | _=>cases hx
end PatternScan.Condition
namespace PatternScan.Rule
open Condition
variable {x:Checked}{p:Expression→Prop}{y:Expression}{op:BitOperator}
/-- The word of a constant expression is the one that it is folded to, without a division by zero or a negative shift.
-/
def Checked.Folds (x:Checked):Prop:=
 x.kind=.integer→x.code.isConstant=true→x.word=x.code.folded∧x.code.Every Expression.DividesByNonzero∧
   x.code.Every Expression.ShiftsForward
def Value.Folds:Value→Prop
 | .expression x=>x.Folds
 | _=>True
lemma Value.Folds.checked {v:Value}(h:v.Folds):v.checked.Folds:=by
 cases v with
 | expression x=>exact h
 | _=>exact fun hk=>nomatch hk
lemma Checked.folds_of_kind (h:x.kind≠.integer):x.Folds:=
 fun hk=>absurd hk h
lemma Checked.folds_of_code (h:x.code.isConstant=false):x.Folds:=
 fun _ hc=>nomatch h.symm.trans hc
lemma Checked.truth_folds (code:Expression)(r:Nat):(truth code r).Folds:=
 folds_of_kind nofun
lemma Checked.literal_folds (v:Int64):Folds {code:=.integer v,kind:=.integer,word:=v}:=
 fun _ _=>⟨rfl,.intro trivial nofun,.intro trivial nofun⟩
lemma every_single {x:Expression}(hpt:x.parts=[y])(hp:p x)(hy:y.Every p):x.Every p:=by
 refine .intro hp fun z hz=>?_
 grind
lemma every_pair {x z:Expression}(hpt:x.parts=[y,z])
 (hp:p x)(hy:y.Every p)(hz:z.Every p):x.Every p:=by
 refine .intro hp fun u hu=>?_
 grind
namespace Action
variable {c:Compiler}{a b:Checked}
lemma negativeOf_folds (ha:a.Folds):Ensures (negativeOf a) c fun x _=>x.Folds:=by
 refine Ensures.after fun _ _=>?_
 split
 ·next hk=>
  refine ensures_pure.2 fun _ hc=>?_
  obtain⟨hw,hdv,hs⟩:=ha (eq_of_beq hk) hc
  refine⟨?_,every_single rfl trivial hdv,every_single rfl trivial hs⟩
  simp only[Checked.known,hw,Expression.folded,foldWord]
 ·exact ensures_pure.2 (Checked.folds_of_kind nofun)
lemma complementOf_folds (ha:a.Folds):Ensures (complementOf a) c fun x _=>x.Folds:=by
 refine ensures_bind.2 (require_ensures.mono fun _ d hk=>ensures_pure.2 fun _ hc=>?_)
 have hk:a.kind=.integer:=by simpa using hk
 obtain⟨hw,hdv,hs⟩:=ha hk hc
 refine⟨?_,every_single rfl trivial hdv,every_single rfl trivial hs⟩
 simp only[Checked.known,hw,Expression.folded,foldWord]
lemma operandsOf_kinds {op:String}{t:Bool}:Ensures (operandsOf a b op t) c
 fun o _=>o=.integers→a.kind=.integer∧b.kind=.integer:=by
 unfold operandsOf
 split
 ·next ha hb=>exact ensures_pure.2 fun _=>⟨ha,hb⟩
 ·exact ensures_pure.2 nofun
 ·exact ensures_pure.2 nofun
 ·exact ensures_pure.2 nofun
 ·split
  ·exact ensures_pure.2 nofun
  ·exact ensures_failWith
 ·exact ensures_failWith
lemma arithmeticOf_folds {op:Arithmetic}(ha:a.Folds)(hb:b.Folds):
 Ensures (arithmeticOf op a b) c fun x _=>x.Folds:=by
 refine ensures_bind.2 (operandsOf_kinds.mono fun o d hk=>?_)
 split
 ·next ho=>
  obtain⟨hka,hkb⟩:=hk (eq_of_beq ho)
  refine ensures_unless ensures_fail fun hz=>ensures_unless ensures_failWith fun _=>ensures_pure.2 ?_
  intro _ hc
  simp only[Expression.isConstant,Bool.and_eq_true]at hc
  obtain⟨hwa,hda,hsa⟩:=ha hka hc.1.2
  obtain⟨hwb,hdb,hsb⟩:=hb hkb hc.2
  refine⟨?_,every_pair rfl ?_ hda hdb,every_pair rfl trivial hsa hsb⟩
  ·rw[Expression.folded,←hwa,←hwb]
   rfl
  cases op with
  | divide=>
   intro h
   rw[hwb,h]at hz
   cases hz
  | _=>trivial
 ·exact ensures_pure.2 (Checked.folds_of_kind nofun)
lemma bitsOf_folds (ha:a.Folds)(hb:b.Folds):
 Ensures (bitsOf op a b) c fun x _=>x.Folds:=by
 refine ensures_bind.2 (require_ensures.mono fun _ d hka=>?_)
 refine ensures_bind.2 (require_ensures.mono fun _ d' hkb=>?_)
 have hka:a.kind=.integer:=by simpa using hka
 have hkb:b.kind=.integer:=by simpa using hkb
 extract_lets result
 -- What the value of the operator has to be, given the word it is folded to.
 have hr:∀{word:Int64},(a.code.isConstant → b.code.isConstant→
  word=(Expression.bits op a.code b.code).folded ∧ (Expression.bits op a.code b.code).DividesByNonzero∧
   (Expression.bits op a.code b.code).ShiftsForward)→(result word).Folds:=by
  intro word h _ hc
  simp only[result,Expression.isConstant,Bool.and_eq_true]at hc
  obtain⟨-,hda,hsa⟩:=ha hka hc.1
  obtain⟨-,hdb,hsb⟩:=hb hkb hc.2
  obtain⟨hwo,hdv,hsh⟩:=h hc.1 hc.2
  exact⟨hwo,every_pair rfl hdv hda hdb,every_pair rfl hsh hsa hsb⟩
 have hw:a.code.isConstant → b.code.isConstant→
  a.word=a.code.folded ∧ b.word=b.code.folded:=fun h h'=>⟨(ha hka h).1,(hb hkb h').1⟩
 cases op with
 | remainder=>
  refine ensures_unless ensures_fail fun hz=>ensures_pure.2 (hr fun h h'=>?_)
  obtain⟨hwa,hwb⟩:=hw h h'
  refine⟨?_,?_,trivial⟩
  ·rw[Expression.folded,←hwa,←hwb]
   rfl
  ·intro h
   rw[hwb,h]at hz
   cases hz
 | exclusive | conjunction | disjunction=>
  refine ensures_pure.2 (hr fun h h'=>?_)
  obtain⟨hwa,hwb⟩:=hw h h'
  refine⟨?_,trivial,trivial⟩
  rw[Expression.folded,←hwa,←hwb]
  rfl
 | shiftLeft | shiftRight=>
  have hs:∀{word:Int64},word=foldShift a.word b.word→¬(b.known && b.word<0)→(result word).Folds:=by
   intro word hwo hf
   refine hr fun h h'=>?_
   obtain⟨hwa,hwb⟩:=hw h h'
   refine⟨by rw[Expression.folded,←hwa,←hwb];exact hwo,trivial,?_⟩
   change b.code.folded=undefinedInteger ∨ 0≤b.code.folded
   rw[←hwb]
   simp only[Checked.known,Bool.and_eq_true,bne_iff_ne,decide_eq_true_eq,not_and,Int64.not_lt]at hf
   exact or_iff_not_imp_left.2 hf
  dsimp only
  split
  ·exact ensures_fail
  ·next hf=>
   split
   ·next hfa=>exact ensures_pure.2 (hs (if_pos hfa).symm hf)
   ·next hn=>exact ensures_pure.2 (hs (if_neg hn).symm hf)
lemma valueOf_folds (ha:a.Folds):Ensures (valueOf a) c fun x _=>x.Folds:=by
 unfold valueOf
 split
 ·exact ensures_pure.2 ha
 ·split
  ·exact ensures_pure.2 (Checked.folds_of_code rfl)
  ·exact ensures_pure.2 (Checked.folds_of_code rfl)
  ·exact ensures_pure.2 (Checked.folds_of_code rfl)
  ·exact ensures_failWith
lemma truthOf_folds (ha:a.Folds):Ensures (truthOf a) c fun x _=>x.Folds:=by
 unfold truthOf
 split
 ·split
  ·exact Ensures.after fun _ _=>ensures_pure.2 (Checked.folds_of_code rfl)
  ·exact ensures_pure.2 (Checked.folds_of_code rfl)
 ·exact ensures_pure.2 ha
 ·exact ensures_pure.2 (Checked.folds_of_kind nofun)
variable {form:Form}{part:Nat→Value}
lemma quantityOf_folds (ha:a.Folds):Ensures (quantityOf a) c fun x _=>x.Folds:=by
 unfold quantityOf
 all_goals repeat' with_reducible first
  | exact ensures_pure.2 ha
  | exact ensures_bind.2 ensures_failWith
  | refine Ensures.after fun _ _=>?_
  | split
lemma perform_folds {p bl:List Value}(hpt:∀v∈p,v.Folds):
 Ensures (perform form p bl) c fun v _=>v.Folds:=by
 have hp:∀n,(p.getD n .none).Folds:=by
  intro n
  rw[List.getD_eq_getElem?_getD]
  cases h:p[n]? with
  | none=>exact trivial
  | some v=>exact hpt v (List.mem_of_getElem? h)
 unfold perform
 split
 ·exact ensures_pure.2 (hp _)
 ·exact ensures_pure.2 trivial
 -- An action ends with a part, with an operator on p, or with a value that is no constant.
 ·split<;>first
   | unfold performDeclaration
   | unfold performSearch
   | unfold performLoop
   | unfold performValue
  all_goals try simp only[declare,someStrings,someStringsIn,someStringsAt,closeLoop,addMember,resolve,memberOf,
   itemOf,callOf,addArgument,textOperationOf,comparisonOf,textLiteral,regexpLiteral]
  all_goals repeat' with_reducible first
   | exact ensures_fail
   | exact ensures_failWith
   | exact ensures_throw
   | exact ensures_pure.2 (hp _)
   | exact ensures_map.2 (quantityOf_folds (hp _).checked)
   | exact ensures_map.2 (truthOf_folds (hp _).checked)
   | exact ensures_map.2 (valueOf_folds (hp _).checked)
   | exact ensures_map.2 (negativeOf_folds (hp _).checked)
   | exact ensures_map.2 (complementOf_folds (hp _).checked)
   | exact ensures_map.2 (arithmeticOf_folds (hp _).checked (hp _).checked)
   | exact ensures_map.2 (bitsOf_folds (hp _).checked (hp _).checked)
   | refine ensures_pure.2 ?_
   | refine ensures_map.2 ?_
   | refine Ensures.after fun _ _=>?_
   | split
  all_goals first
   | exact trivial
   | exact Checked.folds_of_code rfl
   | exact Checked.truth_folds _ _
   | exact Checked.literal_folds _
   | exact fun _ _ _=>trivial
end Action
lemma client_makes_folds : client.Makes Value.Folds where
 next:=fun _=>trivial
 reduce:=by
  intro pr values bl c v c' hv hr
  simp only[client]at hr
  split at hr
  ·next hru=>
   cases hr
   exact Action.perform_folds hv _ _ hru
  ·cases hr
  ·cases hr
 blank:=trivial
def Compiler.opened (c:Compiler)(text:Bytes):Parse Compiler Value:=
 {client:={c with lexer:={buffers:=[{text:=text}]},errors:=0}}
lemma Compiler.opened_holds {P:Value→Prop}(c:Compiler)(t:Bytes):(c.opened t).Holds P:=
 ⟨fun _ h=>(nomatch h),fun _ h=>(nomatch h)⟩

/-- The word that the parser holds for an integer expression built from literals is the one it is folded to, without a
division by zero. The code leaves a word, and where the compiler folds as the machine computes, the word of the parser
is undefined or the same. -/
theorem folding_agrees (t:Grammar.Table) (c:Compiler) (text:Bytes) (n:Nat)
 {p:Grammar.Parse Compiler Value}
 (hp:Grammar.Parse.after t client n (c.opened text) = some p)
 {state:Nat} {x:Checked} (hx:(state,.expression x) ∈ p.stack)
 (hkind:x.kind=.integer) (hconstant:x.code.isConstant=true) :
 x.word=x.code.folded ∧ x.code.Every Expression.DividesByNonzero ∧
  ∃ v:Int64,(∀ frame,Leaves (x.code.code frame) v) ∧
   (x.code.Every Expression.FoldsAlike → x.word=undefinedInteger ∨ x.word=v) := by
 have hval:x.Folds:=((c.opened_holds text).after client_makes_folds hp).stack _ hx
 obtain⟨hword,hdvd,hshifts⟩:=hval hkind hconstant
 refine⟨hword,hdvd,x.code.computed,leaves_computed hconstant,fun hlike=>?_⟩
 rw[hword]
 exact folded_computed hconstant hlike hdvd hshifts
def infixTable (op:Terminal)(production:Nat):Table:=
 let row:=Row.sparse Terminal.count (Phrase.primary.ctorIdx+1)
 { rows:=#[ row [(Terminal.integer.number,.shift 1)] none [(Phrase.primary.ctorIdx,2)],row [] (some 146) [],
    row [(op.number,.shift 3)] none [],
    row [(Terminal.integer.number,.shift 1)] none [(Phrase.primary.ctorIdx,4)],row [] (some production) []]
   shapes:=grammar.productions.map fun p=>(p.result,p.parts.length)
   final:=5 }
def holdsInfix (op:BitOperator)(a b word:Int64)(p:Parse Compiler Value):Bool:=
 match p.stack with
 | [(2,.expression x)]=>
  match x.code with
  | .bits op' (.integer a') (.integer b')=>op'==op&&a'==a&&b'==b&&x.kind==.integer&&x.word==word
  | _=>false
 | _=>false
lemma exists_of_holdsInfix {a b word:Int64}
 {r:Option (Parse Compiler Value)}(h:r.any (holdsInfix op a b word)):
 ∃p x,r=some p∧(2,.expression x)∈p.stack∧x.kind=.integer∧
  x.code=.bits op (.integer a) (.integer b)∧x.word=word:=by
 obtain⟨p,rfl,hp⟩:=(Option.any_eq_true _ _).1 h
 unfold holdsInfix at hp
 grind

/-- The remainder of seven by three is one for the parser and for the machine. -/
theorem folding_agrees_remainder : ∃ p x,Grammar.Parse.after (infixTable .percent 161) client 6
  (Compiler.opened {} ⟨#[0x37,0x20,0x25,0x20,0x33]⟩)=some p∧
 (2,.expression x)∈p.stack∧x.code=.bits .remainder (.integer 7) (.integer 3)∧
 x.word=1∧Leaves (x.code.code 0) 1:=by
 obtain⟨p,x,hp,hx,hkind,hcode,hword⟩:=exists_of_holdsInfix
  (show (Grammar.Parse.after (infixTable .percent 161) client 6 (Compiler.opened {}
   ⟨#[0x37,0x20,0x25,0x20,0x33]⟩)).any (holdsInfix .remainder 7 3 1)=true by decide +kernel)
 have hconstant:x.code.isConstant=true:=by rw[hcode];rfl
 obtain⟨-,-,v,hleaves,hv⟩:=folding_agrees _ _ _ _ hp hx hkind hconstant
 have hlike:x.code.Every Expression.FoldsAlike:=by
  rw[hcode]
  refine every_pair rfl ?_ (.intro trivial nofun) (.intro trivial nofun)
  change ¬((7:Int64)=Int64.minValue∧(3:Int64)=-1)
  decide
 obtain h|h:=hv hlike
 ·rw[hword]at h
  exact absurd h (by decide)
 ·refine⟨p,x,hp,hx,hcode,hword,?_⟩
  rw[←hword,h]
  exact hleaves 0

/-- A shift of eight to the right by one is sixteen for the parser, and four for the machine. -/
theorem folding_shiftRight_differs : ∃ p x,Grammar.Parse.after (infixTable .shiftRight 167) client 6
  (Compiler.opened {} ⟨#[0x38,0x20,0x3e,0x3e,0x20,0x31]⟩)=some p∧
 (2,.expression x)∈p.stack∧x.kind=.integer∧
 x.code=.bits .shiftRight (.integer 8) (.integer 1)∧x.word=16∧Leaves (x.code.code 0) 4:=by
 obtain⟨p,x,hp,hx,hkind,hcode,hword⟩:=exists_of_holdsInfix
  (show (Grammar.Parse.after (infixTable .shiftRight 167) client 6 (Compiler.opened {}
   ⟨#[0x38,0x20,0x3e,0x3e,0x20,0x31]⟩)).any (holdsInfix .shiftRight 8 1 16)=true
   by decide +kernel)
 refine⟨p,x,hp,hx,hkind,hcode,hword,?_⟩
 rw[hcode]
 have hcomputed:(Expression.bits .shiftRight (.integer 8) (.integer 1)).computed=4:=by decide
 rw[←hcomputed]
 exact leaves_computed rfl 0
end PatternScan.Rule
