import PatternScan.Proofs.Condition.Compilation
/-! Conditions without loops and objects, evaluated by what their operators mean and without code, stack
or steps. -/
open List
open PatternScan.Condition.Verdicts PatternScan.Condition.Section PatternScan.Scan
namespace PatternScan.Condition
variable {nm:String}{r:List Instruction}{σ:Type}{e:Environment σ}{ip index:Nat}
def Verdicts.state (v:Verdicts σ)(ip:Nat):State σ:=
 { ip:=ip
   stack:=#[]
   slots:=v.frame.slots
   matched:=v.matched
   unsatisfied:=v.unsatisfied
   world:=v.frame.world }

/-- From a place between two sections on, the machine does what an evaluation says. -/
def Follows (e:Environment σ)(v:Verdicts σ)(ip:Nat)(r:Option (Verdicts σ))(ip':Nat):
 Prop:=
 match r with
 | none=>(run e v.frame.fuel (v.state ip)).1≠.success∧Safe e v.frame.fuel (v.state ip)
 | some v'=>run e v.frame.fuel (v.state ip)=run e v'.frame.fuel (v'.state ip')∧
  (Safe e v'.frame.fuel (v'.state ip')→Safe e v.frame.fuel (v.state ip))
variable {s:State σ}{sections:Array Section}
lemma Safe.running {n:Nat}{s':State σ}(hd:Disciplined e s)(hst:step e s=.running s')
 (h:Safe e n s'):Safe e (n+1) s:=by
 refine⟨hd,fun s'' hs''=>?_⟩
 rw[hst]at hs''
 cases hs''
 exact h
lemma Safe.ended {n:Nat}(hd:Disciplined e s)(hst:∀s',step e s≠.running s'):Safe e (n+1) s:=
 ⟨hd,fun s' hs'=>absurd hs' (hst s')⟩
lemma Follows.bind {v:Verdicts σ}{ip ip' ip'':Nat}{r:Option (Verdicts σ)}
 {k:Verdicts σ→Option (Verdicts σ)}(h:Follows e v ip r ip')
 (hk:∀v',Follows e v' ip' (k v') ip''):Follows e v ip (r.bind k) ip'':=by
 cases r with
 | none=>exact h
 | some v'=>
  have hre:=hk v'
  unfold Follows at h hre⊢
  grind
lemma stepControl_importing {c:ResultCode}{w:σ}(hl:e.world.load nm s.world=(c,w)):
 stepControl e s (.importModule nm)=
  if c=.success then .running {s with ip:=s.ip+1,world:=w}
  else .failed c {s with world:=w}:=by
 simp only[stepControl,hl]
 cases c<;>rfl
lemma importing_follows (v:Verdicts σ)(hi:Segment e.set.code ip (importing nm).code):
 Follows e v ip ((importing nm).eval e v) (ip+1):=by
 obtain⟨mt,u,⟨f,sl,world⟩⟩:=v
 cases f with
 | zero=>exact⟨by rintro⟨⟩,trivial⟩
 | succ n=>
  have hd:Disciplined e (state ⟨mt,u,⟨n+1,sl,world⟩⟩ ip):=
   ⟨_,hi.head,zero_le,by rintro _ ⟨⟩⟩
  simp only[eval,tick,Option.bind_some]
  cases hl:e.world.load nm world with
  | mk cd w=>
   have hst:step e (state ⟨mt,u,⟨n+1,sl,world⟩⟩ ip)=
    if cd=.success then
     .running (state ⟨mt,u,⟨n,sl,w⟩⟩ (ip+1))
    else .failed cd (state ⟨mt,u,⟨n,sl,w⟩⟩ ip):=by
    unfold step
    rw[show (state ⟨mt,u,⟨n+1,sl,world⟩⟩ ip).ip=ip from rfl,hi.head]
    exact stepControl_importing hl
   cases cd
   case success=>
    rw[if_pos rfl]at hst
    exact⟨by simp only[run,hst],Safe.running hd hst⟩
   all_goals
    refine⟨?_,Safe.ended hd fun s' hs'=>by rw[hst]at hs';cases hs'⟩
    simp only[run,hst]
    rintro⟨⟩
lemma step_openRule (v:Verdicts σ){d:Int}
 (hi:Segment e.set.code ip (.openRule index d::r)):
 step e (v.state ip)=.running (if skips e index then
  (v.miss (e.set.rule index) v.frame).state ((ip:Int)+d).toNat
  else v.state (ip+1)):=by
 unfold step
 rw[show (v.state ip).ip=ip from rfl,hi.head]
 change (if skips e index&&(e.set.rule index).everywhere then
  Outcome.running { State.jumpIf (v.state ip) (skips e index) d with
     unsatisfied:=(State.jumpIf (v.state ip) (skips e index) d).unsatisfied.setIfInBounds
      (e.set.rule index).space true }
  else .running (State.jumpIf (v.state ip) (skips e index) d))=_
 unfold miss
 cases skips e index<;>cases (e.set.rule index).everywhere<;>rfl
lemma step_closeRule (v:Verdicts σ)
 (hi:Segment e.set.code ip (.closeRule index::r))(c:Cell)(f:Frame σ):
 step e ((v.state 0).place ip #[c] f)=.running ((v.note index (e.set.rule index) c f).state (ip+1)):=by
 rw[step_control hi.head ⟨rfl,rfl⟩]
 simp only[stepControl]
 change (State.place (v.state 0) (ip+1) (#[].push c) f).pop _=_
 rw[pop_place]
 unfold note miss
 cases c.isTrue<;>cases (e.set.rule index).everywhere<;>rfl
lemma Verdicts.note_frame (v:Verdicts σ)(index:Nat)(r:Rule)(c:Cell)(f:Frame σ):
 (v.note index r c f).frame=f:=by
 unfold note miss
 split<;>rfl
lemma rule_follows (hr:e.Regular)(v:Verdicts σ){cn:Expression}
 (hf:cn.Every (Expression.Fits e.set))
 (hi:Segment e.set.code ip (rule index cn).code):
 Follows e v ip ((rule index cn).eval e v)
  (ip+(rule index cn).code.length):=by
 obtain⟨mt,u,⟨f,slots,world⟩⟩:=v
 cases f with
 | zero=>exact⟨fun h=>(nomatch h),trivial⟩
 | succ n=>
  have ho:=step_openRule ⟨mt,u,⟨n+1,slots,world⟩⟩ hi
  have hd:Disciplined e (state ⟨mt,u,⟨n+1,slots,world⟩⟩ ip):=
   ⟨_,hi.head,zero_le,nofun⟩
  simp only[eval,tick,Option.bind_some]
  unfold Follows
  by_cases hs:skips e index
  ·rw[if_pos hs]at ho
   rw[if_pos hs]
   exact⟨by simp only[run,ho];rfl,Safe.running hd ho⟩
  rw[if_neg hs]at ho
  rw[if_neg hs]
  have hru:run e (n+1) (state ⟨mt,u,⟨n+1,slots,world⟩⟩ ip)=
   run e n (state ⟨mt,u,⟨n+1,slots,world⟩⟩ (ip+1)):=by
   simp only[run,ho]
  have hc:=cn.compiles (s:=state ⟨mt,u,⟨n,slots,world⟩⟩ 0)
   hr hf 0 (ip+1) #[] hi.tail.append.1 ⟨n,slots,world⟩
  rw[show (state ⟨mt,u,⟨n,slots,world⟩⟩ 0).matched=mt from rfl,show (#[]:Array Cell).size=0 from rfl]at hc
  cases he:cn.eval e mt 0 0 ⟨n,slots,world⟩ with
  | none=>
   rw[he]at hc
   exact⟨by rw[hru];exact hc.1,Safe.running hd ho hc.2⟩
  | some p=>
   obtain⟨c,⟨m,slots',world'⟩⟩:=p
   rw[he]at hc
   cases m with
   | zero=>
    refine⟨fun h=>?_,Safe.running hd ho (hc.2 trivial)⟩
    rw[hru]at h
    have hou:=(congrArg Prod.fst hc.1).symm.trans h
    cases hou
   | succ m=>
    have hl:ip+1+(cn.code 0).length+1=ip+(rule index cn).code.length:=by
     simp only[code,length_append,length_cons,length_nil]
     omega
    have hcl:step e ((state ⟨mt,u,⟨n,slots,world⟩⟩ 0).place
     (ip+1+(cn.code 0).length) (#[].push c) ⟨m+1,slots',world'⟩)=
     .running ((note ⟨mt,u,⟨n+1,slots,world⟩⟩ index
      (e.set.rule index) c ⟨m,slots',world'⟩).state
      (ip+(rule index cn).code.length)):=by
     rw[←hl]
     exact step_closeRule ⟨mt,u,⟨n+1,slots,world⟩⟩ hi.tail.append.2 c ⟨m,slots',world'⟩
    simp only[Option.bind_some,Option.map_some,note_frame]
    refine⟨hru.trans (hc.1.trans (by simp only[run,hcl])),fun hsa=>?_⟩
    refine Safe.running hd ho (hc.2 (Safe.running ?_ hcl hsa))
    exact⟨_,hi.tail.append.2.head,le_rfl,rfl⟩
lemma section_follows (hr:e.Regular)(v:Verdicts σ)(s:Section)(hf:∀index cn,s=.rule index cn→
  cn.Every (Expression.Fits e.set))
 (hi:Segment e.set.code ip s.code):Follows e v ip (s.eval e v) (ip+s.code.length):=by
 cases s with
 | importing _=>exact importing_follows v hi
 | rule index cn=>exact rule_follows hr v (hf index cn rfl) hi
lemma sections_follow (hr:e.Regular)(sections:List Section)
 (hf:∀index cn,.rule index cn∈sections→
  cn.Every (Expression.Fits e.set))(v:Verdicts σ)
 (hi:Segment e.set.code ip (sections.flatMap code)):
 Follows e v ip (evalSections e sections v) (ip+(sections.flatMap code).length):=by
 induction sections generalizing v ip with
 | nil=>exact⟨rfl,id⟩
 | cons s _ ih=>
  rw[flatMap_cons]at hi⊢
  rw[length_append,←add_assoc]
  refine (section_follows hr v s ?_ hi.append.1).bind fun v'=>?_
  ·rintro index cn rfl
   exact hf index cn mem_cons_self
  ·exact ih (fun index cn h=>hf index cn (mem_cons_of_mem _ h)) v' hi.append.2
lemma program_eq (sections:Array Section):
 (program sections).toList=sections.toList.flatMap code++[Instruction.halt]:=by
 have hf:∀(l:List Section)(cd:Array Instruction),
  (l.foldl (fun cd s=>cd++s.code) cd).toList=cd.toList++l.flatMap code:=by
  intro l
  induction l with
  | nil=>simp
  | cons s _ ih=>
   intro cd
   rw[foldl_cons,ih]
   simp
 simp[program,←Array.foldl_toList,hf]

/-- A rule set whose code is that of some sections, with conditions that fit it. -/
structure Holds (set:RuleSet)(sections:Array Section):Prop where
 code:set.code=program sections
 fits:∀index condition,.rule index condition∈sections.toList→condition.Every (Expression.Fits set)
def haltAt (sections:Array Section):Nat:=(sections.toList.flatMap code).length
lemma Holds.segment (hset:Holds e.set sections):
 Segment e.set.code 0 (sections.toList.flatMap Section.code++[Instruction.halt]):=by
 intro k hk
 rw[zero_add,hset.code,←Array.getElem?_toList,program_eq]
lemma Holds.halt (hset:Holds e.set sections):e.set.code[haltAt sections]?=some .halt:=by
 have h:=hset.segment.append.2.head
 rwa[zero_add]at h
lemma Holds.follows (hr:e.Regular)(hset:Holds e.set sections)
 (v:Verdicts σ):Follows e v 0 (evalSections e sections.toList v) (haltAt sections):=by
 have h:=sections_follow hr sections.toList hset.fits v hset.segment.append.1
 rwa[zero_add]at h
lemma Holds.step_haltAt (hset:Holds e.set sections)(v:Verdicts σ):
 step e (v.state (haltAt sections))=.halted (v.state (haltAt sections)):=by
 unfold step
 rw[show (v.state (haltAt sections)).ip=haltAt sections from rfl,hset.halt]
 rfl
section
variable (hr:e.Regular)(hset:Holds e.set sections)
include hr hset
lemma evaluate_eq_success_iff (world:σ)(s:State σ):evaluate e world=(.success,s)↔
  ∃v,evalSections e sections.toList (Verdicts.start e.set world)=some v∧
   0<v.frame.fuel∧s=v.state (haltAt sections):=by
 have hf:=hset.follows hr (Verdicts.start e.set world)
 change run e (Verdicts.start e.set world).frame.fuel ((Verdicts.start e.set world).state 0)=_↔_
 cases he:evalSections e sections.toList (Verdicts.start e.set world) with
 | none=>
  rw[he]at hf
  constructor
  ·intro h
   exact absurd (congrArg Prod.fst h) hf.1
  ·rintro⟨v,h,-⟩
   cases h
 | some v=>
  rw[he]at hf
  rw[show run e _ _=run e _ _ from hf.1]
  obtain⟨mt,u,⟨f,sl,world'⟩⟩:=v
  cases f with
  | zero=>
   constructor
   ·intro h
    cases congrArg Prod.fst h
   ·rintro⟨v,h,hfu,-⟩
    cases h
    cases hfu
  | succ n=>
   simp only[run,hset.step_haltAt]
   grind

/-- However long a program of fitting conditions runs, the machine finds on the stack what its
instructions take. -/
lemma program_safe (v:Verdicts σ):Safe e v.frame.fuel (v.state 0):=by
 have hf:=hset.follows hr v
 cases he:evalSections e sections.toList v with
 | none=>
  rw[he]at hf
  exact hf.2
 | some v'=>
  rw[he]at hf
  refine hf.2 ?_
  cases v'.frame.fuel with
  | zero=>trivial
  | succ n=>
   refine Safe.ended ⟨.halt,hset.halt,zero_le,rfl⟩ fun s' hs'=>?_
   rw[hset.step_haltAt]at hs'
   cases hs'
end
end PatternScan.Condition
namespace PatternScan.Condition
open Option PatternScan.Condition.Cell
open Rule (Comparison Arithmetic BitOperator Quantifier)
variable {m:Array Bool}{h n k:Nat}{i:Instruction}{c:Cell}{P Q:Cell→Prop}{g:Cell→Cell→Cell}{a b:Int64}{q:Expression}{qn:Option Int64}
/-- The integers of the machine: one word stands for an undefined value. -/
def reserve (v:Int64):Option Int64:=if v==undefinedInteger then none else some v
def quotient? (f:Int64→Int64→Int64)(a b:Int64):Option Int64:=
 if b==0||(a==Int64.minValue&&b==-1) then none else some (f a b)
def shift? (f:Int64→Int64→Int64)(a b:Int64):Option Int64:=
 if b<0 then none else some (if b<64 then f a b else 0)
def arithmeticValue (op:Arithmetic)(a b:Int64):Option Int64:=
 match op with
 | .add=>some (a+b)
 | .subtract=>some (a-b)
 | .multiply=>some (a*b)
 | .divide=>quotient? (· / ·) a b
def bitsValue (op:BitOperator)(a b:Int64):Option Int64:=
 match op with
 | .remainder=>quotient? (·%·) a b
 | .exclusive=>some (a ^^^ b)
 | .conjunction=>some (a &&& b)
 | .disjunction=>some (a ||| b)
 | .shiftLeft=>shift? (· <<< ·) a b
 | .shiftRight=>shift? (· >>> ·) a b

/-- Whether enough of the members of a set hold. Without a quantity all have to, and with zero none may. -/
def isEnough (quantity:Option Int64)(hits count:Nat):Bool:=
 match quantity with
 | none=>count≤hits
 | some n=>if n==0 then hits==0 else n.toInt≤hits
def quantityOf:Quantifier→Option Int64
 | .all=>none
 | .any=>some 1
 | .none=>some 0
namespace Expression
section
variable (keep:Int64→Option Int64)(found:Findings)(size:Int64)
def number:Expression→Option Int64
 | .integer v=>keep v
 | .fileSize=>keep size
 | .count (.string i)=>keep (Int64.ofNat (found.of i).size)
 | .negative false x=>x.number.bind fun a=>keep (-a)
 | .complement x=>x.number.bind fun a=>keep (~~~a)
 | .arithmetic op .integers a b=>a.number.bind fun a=>b.number.bind fun b=>(arithmeticValue op a b).bind keep
 | .bits op a b=>a.number.bind fun a=>b.number.bind fun b=>(bitsValue op a b).bind keep
 | _=>none
def truth:Expression→Option Bool
 | .found (.string i)=>some !(found.of i).isEmpty
 | .comparison op .integers a b=>
  (a.number keep found size).bind fun a=>(b.number keep found size).map fun b=>compareIntegers op a b
 | .not x=>x.truth.map (!·)
 | .defined x=>some x.truth.isSome
 | .and a b=>some (a.truth==some true&&b.truth==some true)
 | .or a b=>some (a.truth==some true||b.truth==some true)
 | .someStrings (.quantifier q) ss=>
  some (isEnough (quantityOf q) (ss.filter fun i=>!(found.of i).isEmpty).length ss.length)
 | .someStrings q ss=>
  some (isEnough (q.number keep found size) (ss.filter fun i=>!(found.of i).isEmpty).length ss.length)
 | x=>(x.number keep found size).map (· != 0)
end
inductive Numeric:Expression→Prop
 | integer (v:Int64):Numeric (.integer v)
 | fileSize:Numeric .fileSize
 | count (i:Nat):Numeric (.count (.string i))
 | negative {x:Expression}(hx:Numeric x):Numeric (.negative false x)
 | complement {x:Expression}(hx:Numeric x):Numeric (.complement x)
 | arithmetic (op:Arithmetic){a b:Expression}(ha:Numeric a)(hb:Numeric b):
  Numeric (.arithmetic op .integers a b)
 | bits (op:BitOperator){a b:Expression}(ha:Numeric a)(hb:Numeric b):
  Numeric (.bits op a b)
inductive Plain:Expression→Prop
 | number {x:Expression}(hx:Numeric x):Plain x
 | found (i:Nat):Plain (.found (.string i))
 | comparison (op:Comparison){a b:Expression}(ha:Numeric a)(hb:Numeric b):
  Plain (.comparison op .integers a b)
 | not {x:Expression}(hx:Plain x):Plain (.not x)
 | defined {x:Expression}(hx:Plain x):Plain (.defined x)
 | and {a b:Expression}(ha:Plain a)(hb:Plain b):Plain (.and a b)
 | or {a b:Expression}(ha:Plain a)(hb:Plain b):Plain (.or a b)
 | quantified (q:Quantifier)(ss:List Nat):Plain (.someStrings (.quantifier q) ss)
 | counted {q:Expression}(hq:Numeric q)(ss:List Nat):Plain (.someStrings q ss)
def growth:Expression→Nat
 | .negative _ x | .complement x | .not x | .defined x=>x.growth
 | .arithmetic _ _ a b | .comparison _ _ a b | .bits _ a b | .and a b | .or a b=>max a.growth (b.growth+1)
 | .someStrings q ss=>max q.growth (ss.length+2)
 | _=>1
end Expression
/-! ## Evaluations that succeed -/
section
variable {σ α β:Type}{e:Environment σ}
/-- An evaluation ends with a value and changes nothing else; it fails only if it has less than some
number of steps. -/
def Yields (x:Evaluation σ α)(steps:Nat)(P:α→Prop):Prop:=
 ∀f:Frame σ,x f=none∧f.fuel<steps∨∃a left,x f=some (a,{f with fuel:=left})∧f.fuel≤left+steps∧P a
namespace Yields
variable {x:Evaluation σ α}{k:α→Evaluation σ β}{l:Nat}{P:α→Prop}{Q:β→Prop}
lemma pure {a:α}(h:P a):Yields (Pure.pure a:Evaluation σ α) 0 P:=
 fun f=>.inr ⟨a,f.fuel,rfl,le_rfl,h⟩
lemma bind (hx:Yields x n P)(hk:∀a,P a→Yields (k a) l Q):Yields (x >>= k) (n+l) Q:=by
 intro f
 change (x f).bind (fun p=>k p.1 p.2)=none∧_∨∃a left,(x f).bind (fun p=>k p.1 p.2)=some (a,_)∧_
 obtain⟨hn,hf⟩|⟨a,left,ha,hl,hP⟩:=hx f
 ·rw[hn]
  exact .inl ⟨rfl,by omega⟩
 ·rw[ha]
  obtain⟨hn,hf⟩|⟨b,left',hb,hl',hQ⟩:=hk a hP {f with fuel:=left}
  ·exact .inl ⟨hn,by dsimp only at hf;omega⟩
  ·exact .inr ⟨b,left',hb,by dsimp only at hl';omega,hQ⟩
lemma mono (hx:Yields x n P)(h:n≤l){P':α→Prop}(hP:∀a,P a→P' a):Yields x l P':=by
 intro f
 obtain⟨hn,hf⟩|⟨a,left,ha,hl,h'⟩:=hx f
 ·exact .inl ⟨hn,by omega⟩
 ·exact .inr ⟨a,left,ha,by omega,hP a h'⟩
end Yields
lemma tick_yields:Yields (tick:Evaluation σ Unit) 1 fun _=>True:=by
 rintro⟨f,sl,world⟩
 cases f with
 | zero=>exact .inl ⟨rfl,Nat.zero_lt_one⟩
 | succ n=>exact .inr ⟨(),n,rfl,le_rfl,trivial⟩
lemma leave_yields {a:α}(hh:h<e.capacity):Yields (leave e h a) 0 (·=a):=by
 unfold leave
 rw[if_pos hh]
 exact .pure rfl
lemma apply_yields {o:List Cell}(hc:∀w,result e m i o w=some (c,w))(hh:h<e.capacity):
 Yields (apply e m i o h) 1 (·=c):=by
 rw[apply_eq]
 refine tick_yields.bind (l:=0) fun _ _=>?_
 intro f
 refine .inr ⟨c,f.fuel,?_,le_rfl,rfl⟩
 dsimp only
 rw[hc,given,leave,if_pos hh]
 rfl
lemma Yields.unary {x:Evaluation σ Cell}{g:Cell→Cell}(hx:Yields x n P)(hh:h<e.capacity)
 (hg:∀a w,result e m i [a] w=some (g a,w))(hQ:∀a,P a→Q (g a)):
 Yields (do apply e m i [←x] h) (n+1) Q:=by
 refine hx.bind fun a ha=>(apply_yields (hg a) hh).mono le_rfl ?_
 rintro _ rfl
 exact hQ a ha
lemma Yields.binary {x y:Evaluation σ Cell}{P':Cell→Prop}
 (hx:Yields x n P)(hy:Yields y k P')
 (hh:h<e.capacity)(hg:∀a b w,result e m i [a,b] w=some (g a b,w))
 (hQ:∀a b,P a→P' b→Q (g a b)):
 Yields (do apply e m i [←x,←y] h) (n+k+1) Q:=by
 refine hx.bind fun a ha=>hy.bind fun b hb=>(apply_yields (hg a b) hh).mono le_rfl ?_
 rintro _ rfl
 exact hQ a b ha hb
lemma pushAll_yields {is:List Instruction}{v:Instruction→Cell}(hv:∀i∈is,∀w,result e m i [] w=some (v i,w)){h:Nat}
 (hh:h+is.length≤e.capacity):Yields (pushAll e m is h) is.length (·=is.map v):=by
 induction is generalizing h with
 | nil=>exact .pure rfl
 | cons i _ ih=>
  rw[length_cons]at hh⊢
  rw[add_comm]
  refine (apply_yields (hv i mem_cons_self) (by omega)).bind ?_
  rintro _ rfl
  refine (ih (fun j hj=>hv j (mem_cons_of_mem _ hj)) (by omega)).bind (l:=0) ?_
  rintro _ rfl
  exact .pure rfl
end
/-! ## The machine's integers -/
lemma reserve_undefined:reserve undefinedInteger=none:=by decide
lemma reserve_of_ne {v:Int64}(h:v≠undefinedInteger):reserve v=some v:=by simp[reserve,h]
lemma arithmeticValue_bind (op:Arithmetic)(a b:Int64):
 (arithmeticValue op a b).bind reserve=reserve (integerArithmetic op a b):=by
 cases op
 case divide=>
  simp only[arithmeticValue,integerArithmetic,quotient?]
  split
  ·exact reserve_undefined.symm
  ·rfl
 all_goals rfl
lemma bitsValue_bind (op:BitOperator)(a b:Int64):
 (bitsValue op a b).bind reserve=reserve (bitOperation op a b):=by
 cases op
 case remainder=>
  simp only[bitsValue,bitOperation,quotient?]
  split
  ·exact reserve_undefined.symm
  ·rfl
 case shiftLeft | shiftRight=>
  simp only[bitsValue,bitOperation,shift?]
  split
  ·exact reserve_undefined.symm
  ·split<;>rfl
 all_goals rfl
def Cell.truth (c:Cell):Option Bool:=(reserve c.word).map (· != 0)
lemma Cell.truth_eq (c:Cell):c.truth=if c.isUndefined then none else some (c.word != 0):=by
 unfold truth reserve isUndefined
 split<;>rfl
lemma Cell.isTrue_eq (c:Cell):c.isTrue=(c.truth==some true):=by
 rw[truth_eq,isTrue]
 grind
lemma Cell.truth_ofBool (b:Bool):(ofBool b).truth=some b:=by cases b<;>decide
lemma unaryResult_integer (f:Int64→Int64)(a:Int64):
 ∃v,unaryResult (fun c=>.integer (f c.word)) (.integer a)=.integer v∧
  (reserve a).bind (fun a=>reserve (f a))=reserve v:=by
 by_cases h:a=undefinedInteger
 ·subst h
  exact⟨undefinedInteger,rfl,by rfl⟩
 ·refine⟨f a,?_,by rw[reserve_of_ne h];rfl⟩
  simp[unaryResult,isUndefined,word,h]
lemma binaryResult_undefined (f:Cell→Cell→Cell)(a b:Int64)(h:a=undefinedInteger∨b=undefinedInteger):
 binaryResult f (.integer a) (.integer b)=.undefined:=by
 unfold binaryResult
 rw[if_pos (by simpa[isUndefined,word]using h)]
lemma binaryResult_of_ne (f:Cell→Cell→Cell)(ha:a≠undefinedInteger)(hb:b≠undefinedInteger):
 binaryResult f (.integer a) (.integer b)=f (.integer a) (.integer b):=by
 unfold binaryResult
 rw[if_neg (by simp[isUndefined,word,ha,hb])]
lemma reserve_bind_undefined {γ:Type}(f:Int64→Int64→Option γ)
 (h:a=undefinedInteger∨b=undefinedInteger):
 ((reserve a).bind fun a=>(reserve b).bind (f a))=none:=by
 obtain rfl|rfl:=h
 ·rfl
 ·cases reserve a<;>rfl
lemma binaryResult_integer {f:Int64→Int64→Int64}{g:Int64→Int64→Option Int64}
 (hg:∀a b,(g a b).bind reserve=reserve (f a b))(a b:Int64):
 ∃v,binaryResult (fun c d=>.integer (f c.word d.word)) (.integer a) (.integer b)=.integer v∧
  ((reserve a).bind fun a=>(reserve b).bind fun b=>(g a b).bind reserve)=reserve v:=by
 by_cases h:a=undefinedInteger∨b=undefinedInteger
 ·refine⟨undefinedInteger,binaryResult_undefined _ a b h,?_⟩
  rw[reserve_bind_undefined (fun a b=>(g a b).bind reserve) h,reserve_undefined]
 ·obtain⟨ha,hb⟩:=not_or.1 h
  refine⟨f a b,binaryResult_of_ne _ ha hb,?_⟩
  rw[reserve_of_ne ha,reserve_of_ne hb]
  exact hg a b
lemma enough_eq (q:Int64)(hits count:Nat):
 enough (.integer q) hits count=isEnough (reserve q) hits count:=by
 unfold enough isEnough reserve isUndefined word
 cases hq:q==undefinedInteger
 ·simp only[Bool.false_eq_true,if_false]
  cases q==0<;>simp
 ·simp
lemma memberHits_strings (found:Findings)(ss:List Nat):
 memberHits found (ss.map .string)=(ss.filter fun i=>!(found.of i).isEmpty).length:=by
 unfold memberHits
 rw[List.filter_map,length_map]
 rfl
lemma memberTotal_rules (mt:Array Bool)(rs:List Nat):
 memberTotal (rs.map fun r=>.ofBool (mt.getD r false))=
  (rs.filter fun r=>mt.getD r false).length:=by
 have hf (l:List Nat) (n:Int):
  (l.map fun r=>ofBool (mt.getD r false)).foldl (fun n c=>n+c.word.toInt) n=
   n+(l.filter fun r=>mt.getD r false).length:=by
  induction l generalizing n with
  | nil=>simp
  | cons r l ih=>
   rw[map_cons,foldl_cons,ih,filter_cons]
   cases mt.getD r false
   ·exact congrArg (·+_) (Int.add_zero n)
   ·simp only[if_true,length_cons]
    rw[show (ofBool true).word.toInt=1 by decide]
    omega
 exact (hf rs 0).trans (Int.zero_add _)

/-! ## Conditions -/
section
variable {σ:Type}{e:Environment σ}{v v':Verdicts σ}{index:Nat}
namespace Expression
variable {x:Expression}
lemma growth_pos (x:Expression):0<x.growth:=by fun_induction growth x<;>omega
lemma lt_capacity (hh:h+x.growth≤e.capacity):h<e.capacity:=
 lt_of_lt_of_le (Nat.lt_add_of_pos_right x.growth_pos) hh

/-- The machine has the value of an integer expression, with its reserved word if there is none. -/
def Shows (e:Environment σ)(x:Expression)(c:Cell):Prop:=
 ∃v,c=.integer v∧x.number reserve e.findings e.fileSize=reserve v
lemma Numeric.yields (hx:x.Numeric)(frame:Nat)(hh:h+x.growth≤e.capacity):
 Yields (x.eval e m frame h) (x.code frame).length (Shows e x):=by
 induction hx generalizing h with
 | integer v=>
  refine (apply_yields (c:=.integer v) ?_ hh).mono le_rfl ?_
  ·intro w
   unfold constant
   split
   ·next hv=>
    rw[eq_of_beq hv]
    rfl
   ·rfl
  ·rintro _ rfl
   exact⟨v,rfl,rfl⟩
 | fileSize=>
  refine (apply_yields (fun _=>rfl) hh).mono le_rfl ?_
  rintro _ rfl
  exact⟨_,rfl,rfl⟩
 | count i=>
  simp only[eval,StringOperand.eval]
  refine (apply_yields (fun _=>rfl) hh).unary hh (fun _ _=>rfl) ?_
  rintro _ rfl
  exact⟨_,rfl,rfl⟩
 | negative _ ih | complement _ ih=>
  simp only[code,length_append]
  refine (ih hh).unary (lt_capacity hh) (fun _ _=>rfl) ?_
  rintro _ ⟨v,rfl,hv⟩
  rw[Shows,number,hv]
  exact unaryResult_integer _ v
 | arithmetic op _ _ iha ihb=>
  have hht:=lt_capacity hh
  simp only[growth]at hh
  simp only[eval,code,length_append,convert,pure_bind]
  refine (iha (by omega)).binary (ihb (by omega)) hht (fun _ _ _=>rfl) ?_
  rintro _ _ ⟨v,rfl,hv⟩ ⟨v',rfl,hv'⟩
  rw[Shows,number,hv,hv']
  exact binaryResult_integer (arithmeticValue_bind op) v v'
 | bits op _ _ iha ihb=>
  have hht:=lt_capacity hh
  simp only[growth]at hh
  simp only[code,length_append]
  refine (iha (by omega)).binary (ihb (by omega)) hht (fun _ _ _=>rfl) ?_
  rintro _ _ ⟨v,rfl,hv⟩ ⟨v',rfl,hv'⟩
  rw[Shows,number,hv,hv']
  exact binaryResult_integer (bitsValue_bind op) v v'
def Tells (e:Environment σ)(x:Expression)(c:Cell):Prop:=
 c.truth=x.truth reserve e.findings e.fileSize
lemma Numeric.truth_eq (hx:x.Numeric)(keep:Int64→Option Int64)(found:Findings)(size:Int64):
 x.truth keep found size=(x.number keep found size).map (· != 0):=by
 cases hx<;>rfl
lemma Numeric.tells (hx:x.Numeric)(hc:Shows e x c):Tells e x c:=by
 obtain⟨v,rfl,hv⟩:=hc
 rw[Tells,hx.truth_eq,hv]
 rfl
lemma shortCut_yields {x y:Evaluation σ Cell}{R:Cell→Prop}
 {d:Cell→Bool}(hx:Yields x n P)
 (hy:Yields y k Q)(hh:h<e.capacity)
 (hg:∀a b w,result e m i [a,b] w=some (g a b,w))
 (hde:∀a,P a→d a→R a)(hR:∀a b,P a→Q b→R (g a b)):
 Yields (do
  let a ← x
  tick
  if d a then pure a else apply e m i [a,←y] h) (n+(k+2)) R:=by
 refine hx.bind fun a ha=>?_
 rw[add_comm k 2,add_assoc 1 1 k]
 refine tick_yields.bind fun _ _=>?_
 split
 ·next hd=>exact (Yields.pure (hde a ha hd)).mono zero_le fun _=>id
 ·rw[add_comm]
  refine hy.bind fun b hb=>(apply_yields (hg a b) hh).mono le_rfl ?_
  rintro _ rfl
  exact hR a b ha hb
lemma someStrings_yields {ss:List Nat}{frame:Nat}
 (hq:Yields (q.eval e m frame h) n fun c=>∃v,c=.integer v∧qn=reserve v)
 (hh:h+(ss.length+2)≤e.capacity):
 Yields (eval e m (.someStrings q ss) frame h) (n+(ss.length+2)) (·=.ofBool
  (isEnough qn (ss.filter fun i=>!(e.findings.of i).isEmpty).length ss.length)):=by
 refine hq.bind ?_
 rintro _ ⟨v,rfl,rfl⟩
 have hl:(stringPushes ss).length=ss.length+1:=by simp[stringPushes]
 have hp:=@pushAll_yields m _ e (stringPushes ss) _ result_stringPushes (h+1) (by omega)
 rw[hl,memberCell_stringPushes]at hp
 refine hp.bind (l:=1) ?_
 rintro _ rfl
 refine tick_yields.bind (l:=0) fun _ _=>?_
 simp only[tail_cons,setResult,length_map,memberHits_strings,enough_eq]
 exact leave_yields (by omega)
lemma someRules_yields {rs:List Nat}{frame:Nat}(hrs:∀r∈rs,(e.set.rule r).disabled=false)
 (hq:Yields (q.eval e m frame h) n fun c=>∃v,c=.integer v∧qn=reserve v)
 (hh:h+(rs.length+2)≤e.capacity):
 Yields (eval e m (.someRules q rs) frame h) (n+(rs.length+2)) (·=.ofBool
  (isEnough qn (rs.filter fun r=>m.getD r false).length rs.length)):=by
 refine hq.bind ?_
 rintro _ ⟨v,rfl,rfl⟩
 have hl:(rulePushes rs).length=rs.length+1:=by simp[rulePushes]
 have hp:=@pushAll_yields m _ e (rulePushes rs) _ (result_rulePushes hrs) (h+1) (by omega)
 rw[hl,memberCell_rulePushes]at hp
 refine hp.bind (l:=1) ?_
 rintro _ rfl
 refine tick_yields.bind (l:=0) fun _ _=>?_
 simp only[tail_cons,setResult,length_map,memberTotal_rules,enough_eq]
 exact leave_yields (by omega)
lemma Plain.yields {x:Expression}(hx:x.Plain)(frame:Nat){h:Nat}(hh:h+x.growth≤e.capacity):
 Yields (x.eval e m frame h) (x.code frame).length (Tells e x):=by
 induction hx generalizing h with
 | number hx=>exact (hx.yields frame hh).mono le_rfl fun c hc=>hx.tells hc
 | found i=>
  simp only[eval,StringOperand.eval]
  refine (apply_yields (fun _=>rfl) hh).unary hh (fun _ _=>rfl) ?_
  rintro _ rfl
  exact truth_ofBool _
 | comparison op ha hb=>
  have hht:=lt_capacity hh
  simp only[growth]at hh
  simp only[eval,code,length_append,convert,pure_bind]
  have hx:=ha.yields (e:=e) (m:=m) (h:=h) frame (by omega)
  have hy:=hb.yields (e:=e) (m:=m) (h:=h+1) frame (by omega)
  refine hx.binary hy hht (fun _ _ _=>rfl) ?_
  rintro _ _ ⟨v,rfl,hv⟩ ⟨v',rfl,hv'⟩
  rw[Tells,truth,hv,hv']
  by_cases h:v=undefinedInteger∨v'=undefinedInteger
  ·rw[binaryResult_undefined _ v v' h]
   refine (reserve_bind_undefined (fun a b=>some (compareIntegers op a b)) h).symm.trans ?_
   simp only[map_eq_bind,Function.comp_def]
  ·obtain⟨ha,hb⟩:=not_or.1 h
   rw[binaryResult_of_ne _ ha hb,reserve_of_ne ha,reserve_of_ne hb]
   exact truth_ofBool _
 | not _ ih=>
  simp only[code,length_append]
  refine (ih hh).unary (lt_capacity hh) (fun _ _=>rfl) fun c hc=>?_
  rw[Tells,truth,←hc,truth_eq c]
  unfold unaryResult
  cases c.isUndefined
  ·refine (truth_ofBool _).trans (congrArg some ?_)
   exact (Bool.not_not _).symm
  ·rfl
 | defined _ ih=>
  simp only[code,length_append]
  refine (ih hh).unary (lt_capacity hh) (fun _ _=>rfl) fun c hc=>?_
  rw[Tells,truth,←hc,truth_eq c]
  cases c.isUndefined<;>rfl
 | and _ _ iha ihb=>
  have hht:=lt_capacity hh
  simp only[growth]at hh
  simp only[code,length_append]
  refine (shortCut_yields (iha (by omega)) (ihb (by omega)) hht
   (fun _ _ _=>rfl) (fun c hc hd=>?_) fun c d hc hd=>?_).mono ?_ fun _=>id
  ·rw[Tells,truth,←hc,truth_eq]
   simp only[Bool.and_eq_true,Bool.not_eq_true',beq_iff_eq]at hd
   simp[hd.1,hd.2]
  ·rw[Tells,truth,truth_ofBool,←hc,←hd,isTrue_eq,isTrue_eq]
  ·simp
   omega
 | or _ _ iha ihb=>
  have hht:=lt_capacity hh
  simp only[growth]at hh
  simp only[code,length_append]
  refine (shortCut_yields (iha (by omega)) (ihb (by omega)) hht
   (fun _ _ _=>rfl) (fun c hc hd=>?_) fun c d hc hd=>?_).mono ?_ fun _=>id
  ·rw[isTrue_eq,beq_iff_eq]at hd
   rw[Tells,truth,←hc,hd]
   rfl
  ·rw[Tells,truth,truth_ofBool,←hc,←hd,isTrue_eq,isTrue_eq]
  ·simp
   omega
 | quantified q _=>
  rw[growth]at hh
  have hq:Yields (eval e m (.quantifier q) frame h) 1 fun c=>
   ∃v,c=.integer v∧quantityOf q=reserve v:=by
   cases q
   all_goals
    refine (apply_yields (fun _=>rfl) (by omega)).mono le_rfl ?_
    rintro _ rfl
    exact⟨_,rfl,by decide⟩
  refine (someStrings_yields hq (by omega)).mono ?_ ?_
  ·simp[code,stringPushes]
   omega
  ·rintro _ rfl
   exact truth_ofBool _
 | counted hq _=>
  rw[growth]at hh
  refine (someStrings_yields (hq.yields frame (by omega)) (by omega)).mono ?_ ?_
  ·simp[code,stringPushes]
  ·rintro _ rfl
   rw[Tells,truth_ofBool]
   cases hq<;>rfl
lemma Numeric.fits (hx:x.Numeric)(set:RuleSet):x.Every (Fits set):=by
 induction hx with
 | integer | fileSize | count=>exact .intro trivial (by simp[parts])
 | negative _ ih | complement _ ih=>exact .intro trivial (by simpa[parts]using ih)
 | arithmetic _ _ _ iha ihb | bits _ _ _ iha ihb=>exact .intro trivial (by simpa[parts]using ⟨iha,ihb⟩)
lemma Plain.fits {x:Expression}(hx:x.Plain)(set:RuleSet):x.Every (Fits set):=by
 induction hx with
 | number hx=>exact hx.fits set
 | found=>exact .intro trivial (by simp[parts])
 | comparison _ ha hb=>exact .intro trivial (by simpa[parts]using ⟨ha.fits set,hb.fits set⟩)
 | not _ ih | defined _ ih=>exact .intro trivial (by simpa[parts]using ih)
 | and _ _ iha ihb | or _ _ iha ihb=>exact .intro trivial (by simpa[parts]using ⟨iha,ihb⟩)
 | quantified q _=>exact .intro trivial (by simpa[parts]using Every.intro trivial (by simp[parts]))
 | counted hq _=>exact .intro trivial (by simpa[parts]using hq.fits set)
end Expression
/-! ## Verdicts -/
lemma Verdicts.note_matched (v:Verdicts σ)(index:Nat)(r:Rule)(c:Cell)(f:Frame σ):(v.note index r c f).matched=
  if c.isTrue then v.matched.setIfInBounds index true else v.matched:=by
 unfold note miss
 split<;>rfl
lemma Section.eval_other {s:Section}(h:s.eval e v=some v')(hs:∀y,s≠.rule index y):
 v'.matched.size=v.matched.size∧v'.matched[index]?=v.matched[index]?:=by
 cases s with
 | importing _=>
  obtain⟨p,-,hp⟩:=bind_eq_some_iff.1 h
  grind
 | rule i y=>
  have hi:i≠index:=fun hi=>hs y (hi▸rfl)
  obtain⟨p,-,hp⟩:=bind_eq_some_iff.1 h
  split at hp
  ·cases hp
   exact⟨rfl,rfl⟩
  ·obtain⟨q,-,hq⟩:=bind_eq_some_iff.1 hp
   obtain⟨r,-,rfl⟩:=map_eq_some_iff.1 hq
   rw[note_matched]
   grind
lemma evalSections_other {sections:List Section}
 (h:evalSections e sections v=some v')(hs:∀y,.rule index y∉sections):
 v'.matched.size=v.matched.size∧v'.matched[index]?=v.matched[index]?:=by
 induction sections generalizing v with
 | nil=>
  cases h
  exact⟨rfl,rfl⟩
 | cons s _ _=>
  obtain⟨u,hu,hre⟩:=bind_eq_some_iff.1 h
  have hh:=eval_other hu fun y hy=>hs y (hy▸mem_cons_self)
  grind
lemma evalSections_append (l r:List Section)(v:Verdicts σ):
 evalSections e (l++r) v=(evalSections e l v).bind (evalSections e r):=by
 induction l generalizing v with
 | nil=>rfl
 | cons s l ih=>
  simp only[evalSections,Option.bind_assoc]
  exact congrArg _ (funext ih)
lemma Section.eval_plain {x:Expression}(hx:x.Plain)(hro:x.growth≤e.capacity)(hi:index<v.matched.size)
 (hf:v.matched[index]?=some false)
 (h:(rule index x).eval e v=some v'):
 v'.matched[index]?=some (!skips e index && x.truth reserve e.findings e.fileSize==some true):=by
 obtain⟨p,-,hp⟩:=bind_eq_some_iff.1 h
 split at hp
 ·next hs=>
  cases hp
  rw[hs]
  exact hf
 next hs=>
 obtain⟨q,hq,hr⟩:=bind_eq_some_iff.1 hp
 obtain⟨r,-,rfl⟩:=map_eq_some_iff.1 hr
 obtain⟨hn,-⟩|⟨c,left,hc,-,ht⟩:=
  hx.yields (e:=e) (h:=0) 0 (by omega) p.2
 ·rw[hn]at hq
  cases hq
 ·rw[hc]at hq
  cases hq
  rw[note_matched,isTrue_eq,show c.truth=_ from ht]
  grind

/-- Wherever the code of a condition stands, the machine leaves a value that is as true, false or undefined as the
condition is by its meaning, and the rule matches if it is evaluated and its condition is true. -/
theorem plain_condition_means (hr:e.Regular) {x:Expression} (hx:x.Plain) :
 (∀ (s:State σ) (ip frame:Nat) (stack:Array Cell) (f:Frame σ),
  Segment e.set.code ip (x.code frame) → stack.size+x.growth ≤ e.capacity →
  (x.code frame).length ≤ f.fuel →
  ∃ c left,run e f.fuel (s.place ip stack f) =
   run e left (s.place (ip+(x.code frame).length) (stack.push c) f) ∧
   f.fuel ≤ left+(x.code frame).length ∧ c.truth = x.truth reserve e.findings e.fileSize) ∧
 ∀ (before after:List Section) (index:Nat) (w:σ) (s:State σ),
  Holds e.set (before++.rule index x::after).toArray → index < e.set.rules.size →
  (∀ y,.rule index y ∉ before) → (∀ y,.rule index y ∉ after) → x.growth ≤ e.capacity →
  evaluate e w = (.success,s) →
  s.matched[index]? = some (!skips e index &&
   x.truth reserve e.findings e.fileSize == some true) := by
 refine⟨fun s ip frame stack f hi hroom hfuel=>?_,?_⟩
 ·have hrun:=x.compiles (s:=s) hr (hx.fits e.set) frame ip stack hi f
  obtain⟨-,hless⟩|⟨c,left,hc,hleft,htells⟩ :=
   hx.yields (m:=s.matched) frame hroom f
  ·omega
  ·rw[hc]at hrun
   exact⟨c,left,hrun.1,hleft,htells⟩
 ·intro before after index w s hset hidx hbef hafter hroom hsucc
  obtain⟨v,hv,-,rfl⟩:=(evaluate_eq_success_iff hr hset w s).1 hsucc
  rw[List.toList_toArray,evalSections_append]at hv
  obtain⟨u,hu,hrest⟩:=bind_eq_some_iff.1 hv
  obtain⟨u',hu',hrest⟩:=bind_eq_some_iff.1 hrest
  obtain⟨hsize,hfst⟩:=evalSections_other hu hbef
  obtain⟨-,hlast⟩:=evalSections_other hrest hafter
  have hst:(Verdicts.start e.set w).matched.size=e.set.rules.size:=Array.size_replicate
  refine hlast.trans (Section.eval_plain hx hroom (by omega) ?_ hu')
  rw[hfst]
  exact Array.getElem?_replicate.trans (if_pos hidx)
def Environment.sole (condition:Expression)(found:Findings):Environment Unit:=
 { set:=
    { (default:RuleSet) with
      spaces:=#["default"]
      rules:=#[{name:="r",space:=0,hidden:=false,everywhere:=false}]
      code:=program #[.rule 0 condition] }
   findings:=found
   world:=
    { object?:=fun _ _=>none
      load:=fun _ w=>(.success,w)
      call:=fun _ _ w=>(.error .invalidArgument,w)
      read:=fun _ _ w=>(undefinedInteger,w) }
   fileSize:=3
   entryPoint:=undefinedInteger
   capacity:=16 }
lemma Environment.sole_regular (c:Expression)(found:Findings):
 (sole c found).Regular:=
 ⟨fun h=>by cases h;decide,show 16≤2^63 by decide⟩
lemma Environment.sole_holds {x:Expression}{f:Findings}(hx:x.Every (Expression.Fits (sole x f).set)):
 Holds (sole x f).set #[.rule 0 x]∧Segment (sole x f).set.code 1 (x.code 0):=by
 have hset:Holds (sole x f).set #[.rule 0 x]:=⟨rfl,fun index cn h=>by
  obtain⟨rfl,rfl⟩:index=0∧cn=x:=by simpa using h
  exact hx⟩
 exact⟨hset,hset.segment.append.1.append.1.tail.append.1⟩
def oneFound:Findings:=
 { confirmed:=#[Scan.MatchList.insert .empty {base:=0,offset:=1,length:=2,block:=.empty,start:=0,shown:=0} false,.empty]
   pending:=#[.empty,.empty]
   required:=#[true]
   silenced:=#[false,false] }
def division:Expression:=
 .and (.someStrings (.integer 1) [0,1]) (.not (.defined (.comparison .less .integers (.count (.string 0))
   (.bits .remainder .fileSize (.integer 0)))))
lemma division_plain:division.Plain:=
 .and (.counted (.integer 1) [0,1])
  (.not (.defined (.comparison .less (.count 0) (.bits .remainder .fileSize (.integer 0)))))
theorem plain_condition_means_division :
 (∃ c left,run (Environment.sole division oneFound) 20
  ({ ip := 1,matched := #[false],unsatisfied := #[false],world := () }:State Unit) =
  run (Environment.sole division oneFound) left
   ({ ip := 16,stack := #[c],matched := #[false],unsatisfied := #[false],
      world := () }:State Unit)∧c.truth=some true)∧
 (evaluate (Environment.sole division oneFound) ()).1=.success∧
 (evaluate (Environment.sole division oneFound) ()).2.matched[0]?=some true:=by
 have hr:=Environment.sole_regular division oneFound
 have hmeans:=plain_condition_means hr division_plain
 obtain⟨hset,hi⟩:=Environment.sole_holds (f:=oneFound) (division_plain.fits _)
 have hsucc:(evaluate (Environment.sole division oneFound) ()).1=.success:=by
  decide +kernel
 refine⟨?_,hsucc,?_⟩
 ·obtain⟨c,left,hrun,-,htruth⟩:=hmeans.1
   {matched:=#[false],unsatisfied:=#[false],world:=()} 1 0 #[]
   ⟨20,Array.replicate slotCount (.integer 0),()⟩ hi (by decide) (by decide)
  exact⟨c,left,hrun,htruth.trans (by decide +kernel)⟩
 ·exact (hmeans.2 [] [] 0 () (evaluate (Environment.sole division oneFound) ()).2 hset (by decide)
   (by simp) (by simp) (by decide) (Prod.ext hsucc rfl)).trans (by decide +kernel)

/-- The opposite of 1483400188077313 is the reserved word.  It is less than zero, but the machine does
not find its comparison to be defined. -/
theorem negative_reserved_word :
 let x:Expression:=.comparison .less .integers (.negative false (.integer 1483400188077313))
  (.integer 0)
 x.Plain∧x.truth some oneFound 3=some true∧x.truth reserve oneFound 3=none∧
  (evaluate (Environment.sole x oneFound) ()).1=.success∧
  (evaluate (Environment.sole x oneFound) ()).2.matched[0]?=some false:=by
 refine⟨.comparison .less (.negative (.integer _)) (.integer 0),by decide,by decide,?_,?_⟩
 ·decide +kernel
 ·decide +kernel
end
end PatternScan.Condition
