import PatternScan.Proofs.Rule.History
import PatternScan.Rule.Source
/-! What the actions do to the strings, their code and the names of a compiler is of a few kinds. -/
namespace PatternScan.Rule
/-- What a compiler has named: its namespaces and the one it is in, its rules with their namespaces, and the numbers
it finds rules by. -/
structure Naming where
 spaces:Array String
 space:Nat
 rules:List (String×Nat)
 numbers:Names Nat
namespace Compiler
def naming (c:Compiler):Naming:=
 ⟨c.spaces,c.space,c.rules.toList.map fun r=>(r.name,r.space),c.ruleNumbers⟩
lemma naming_modifyRule (c:Compiler){f:Rule→Rule}
 (hf:∀r,(f r).name=r.name∧(f r).space=r.space):
 (c.modifyRule f).naming=c.naming:=by
 unfold modifyRule
 split
 ·simp only[naming,Naming.mk.injEq,Array.toList_modify,true_and,and_true]
  refine List.ext_getElem? fun j=>?_
  grind
 ·rfl
lemma naming_reportCode (c:Compiler)(cd:ResultCode):(c.reportCode cd).naming=c.naming:=rfl
end Compiler
lemma StringUse.note_noted (use:StringUse)(n:Bool)(s:RuleString):s.Noted (use.note n s):=by
 cases use with
 | presence=>exact⟨rfl,rfl,rfl,rfl,nofun⟩
 | other=>exact⟨rfl,rfl,rfl,rfl,nofun⟩
 | place o=>
  unfold note
  dsimp only
  generalize (if s.fixedOffset==undefinedInteger then o else s.fixedOffset)=fixed
  split
  ·exact⟨rfl,rfl,rfl,rfl,nofun⟩
  ·exact⟨rfl,rfl,rfl,rfl,id⟩
namespace Action
variable {α β:Type}{a:Action α}{c:Compiler}{P:Compiler→Prop}
namespace Keeps
lemma set (h:P c):Keeps P (MonadStateOf.set c:Action PUnit):=fun _ _=>h
lemma modify {f:Compiler → Compiler}(h:∀c,P c→P (f c)):Keeps P (modify f:Action PUnit):=h
lemma map (f:α→β)(ha:Keeps P a):Keeps P (f <$> a):=ha.bind fun _=>.pure _
lemma foldlM {f:β→α→Action β}(h:∀b x,Keeps P (f b x))(l:List α):∀b,Keeps P (l.foldlM f b):=by
 induction l with
 | nil=>exact fun b=>.pure b
 | cons x l ih=>exact fun b=>(h b x).bind ih
lemma refuse {t:Bool}{cd:ResultCode}{d:String}{k:Unit→Action β}
 (hf:Keeps P (failWith cd d:Action PUnit))(hk:t=false→Keeps P (k ())):
 Keeps P (if t then failWith cd d >>= k else k ()):=by
 cases t with
 | false=>exact hk rfl
 | true=>
  intro c hc
  exact hf c hc
end Keeps
lemma openRule_keeps {hidden everywhere:Bool}{name:String}
 (hf:∀cd detail,Keeps P (failWith cd detail:Action PUnit))
 (hs:∀c:Compiler,P c→c.ruleNumber? name=none→P { c with
  rules:=c.rules.push
   { name:=name,space:=c.space,hidden:=hidden,everywhere:=everywhere
     firstString:=c.strings.size }
  rule:=some c.rules.size
  stringNames:=[]
  ruleNumbers:=c.ruleNumbers.insert (c.spaceName,name) c.rules.size }):
 Keeps P (openRule hidden everywhere name):=by
 refine .get_bind fun c hc=>.refuse (hf _ _) fun hn=>.refuse (hf _ _) fun _=>?_
 exact .set (hs c hc (by simpa using (Bool.or_eq_false_iff.1 hn).1))

/-- A property that holds on when strings are declared and used. -/
structure Tame (P:Compiler→Prop):Prop where
 same:∀{c d:Compiler},P c→c.Same d→d.naming=c.naming→P d
 note:∀{c:Compiler},P c→∀i (f:RuleString→RuleString),(∀s:RuleString,s.Noted (f s))→P (c.modifyString i f)
 code:∀{c:Compiler}{code:Regex.Code},P c→c.regexCode.size≤code.size→
  (∀x<c.regexCode.size,code.fetch x=c.regexCode.fetch x)→P {c with regexCode:=code}
 string:∀name m text,Keeps P (addString name m (some text) none)
 parts:∀name m allowance p,Keeps P (addParts name m allowance p none Limits.atomQuality)
 rule:∀hidden everywhere name,Keeps P (openRule hidden everywhere name)
variable (h:Tame P)
include h
lemma Tame.noteEach (hc:P c)(l:List Nat){f:RuleString→RuleString}
 (hf:∀s:RuleString,s.Noted (f s)):P (l.foldl (fun c i=>c.modifyString i f) c):=by
 induction l generalizing c with
 | nil=>exact hc
 | cons i l ih=>exact ih (h.note hc i f hf)
lemma Tame.modifyRule (hc:P c){f:Rule→Rule}
 (hf:∀r,(f r).name=r.name∧(f r).space=r.space):P (c.modifyRule f):=by
 obtain⟨hs,hco,ht⟩:=c.modifyRule_core f
 refine h.same hc ⟨hs,hco,ht,?_⟩ (c.naming_modifyRule hf)
 unfold Compiler.modifyRule
 split<;>rfl
lemma fail_keeps (cd:ResultCode):Keeps P (fail cd:Action α):=by
 intro c hc
 exact h.same hc ((quiet_fail (α:=α) cd).same (run_fail cd c)) rfl
lemma failWith_keeps (cd:ResultCode)(d:String):Keeps P (failWith cd d:Action α):=by
 intro c hc
 exact h.same hc ((quiet_failWith (α:=α) cd d).same (run_failWith cd d c))
  (Compiler.naming_reportCode _ cd)
lemma warn_keeps (t:String):Keeps P (warn t):=
 .modify fun _ hc=>h.same hc ⟨rfl,rfl,rfl,rfl⟩ rfl
lemma require_keeps (e:Checked)(k:List Kind)(op:String):Keeps P (require e k op):=by
 have hw (detail:String):Keeps P (modify (·.setDetail detail):Action PUnit):=
  .modify fun _ hc=>h.same hc ⟨rfl,rfl,rfl,rfl⟩ rfl
 unfold require
 split
 ·exact .pure _
 ·split
  all_goals with_reducible first
   | exact fail_keeps h _
   | exact (hw _).bind fun _=>fail_keeps h _
lemma useString_keeps (n:String)(use:StringUse):Keeps P (useString n use):=by
 refine .get_bind fun c hc=>?_
 split
 ·split
  ·exact fail_keeps h _
  ·exact (Keeps.set (h.noteEach hc _ (use.note_noted false))).bind fun _=>.pure _
 ·split
  ·exact failWith_keeps h _ _
  ·refine (Keeps.set (h.note hc _ _ fun s=>?_)).bind fun _=>.pure _
   exact (use.note_noted true s).trans ⟨rfl,rfl,rfl,rfl,id⟩
lemma stringsNamed_keeps (n:String):Keeps P (stringsNamed n):=by
 refine .get_bind fun c hc=>?_
 extract_lets found jp
 refine (Keeps.set (h.noteEach hc found ?_)).bind fun _=>?_
 ·exact fun s=>⟨rfl,rfl,rfl,rfl,nofun⟩
 split
 ·exact (failWith_keeps h _ _).bind fun _=>.pure _
 ·exact .pure _
lemma needAllMatches_keeps (st:Array Nat):Keeps P (needAllMatches st):=by
 refine .modify fun c hc=>?_
 rw[←Array.foldl_toList]
 exact h.noteEach hc _ fun s=>⟨rfl,rfl,rfl,rfl,id⟩
lemma regexpLiteral_keeps (b:Bytes)(n dt:Bool):Keeps P (regexpLiteral b n dt):=by
 refine .get_bind fun c hc=>?_
 split
 ·exact failWith_keeps h _ _
 rename_i r _
 extract_lets address
 cases he:r.pattern.emit false c.regexCode r.pattern.noEntries with
 | error code=>exact fun d hd=>fail_keeps h code d hd
 | ok x=>
  obtain⟨-,hs,hf,-⟩:=Regex.Pattern.emit_stands he
  change Keeps P (do
   set {c with regexCode:=x.1}
   if r.unknownEscape then warn "unknown escape sequence"
   pure ({code:=.matcher ⟨address,n,dt⟩,kind:=.regexp}:Checked))
  refine (Keeps.set (h.code hc (by omega) hf)).bind fun _=>?_
  split
  ·exact (warn_keeps h _).bind fun _=>.pure _
  ·exact .pure _
lemma readPattern_keeps (n:String)(m:Modifier)(t:Bytes):Keeps P (readPattern n m t):=by
 unfold readPattern
 repeat' with_reducible first
  | exact .pure _
  | exact failWith_keeps h _ _
  | exact fail_keeps h _
  | exact warn_keeps h _
  | refine .get_bind fun c hc=>?_
  | refine .bind ?_ fun _=>?_
  | split
lemma declareString_keeps (n:String)(m:Modifier)(t:Bytes):Keeps P (declareString n m t):=
 declareString_walk Keeps.pure Keeps.bind (fun _ hc=>hc) (failWith_keeps h) (warn_keeps h)
  (fun _=>.modify fun _ hc=>h.same hc ⟨rfl,rfl,rfl,rfl⟩ rfl) (readPattern_keeps h) h.string
  h.parts n m t
lemma checkString_keeps (r:String)(cn i:Nat):Keeps P (checkString r cn i):=by
 unfold checkString
 simp only
 repeat' with_reducible first
  | exact .pure _
  | exact failWith_keeps h _ _
  | refine .get_bind fun c hc=>?_
  | refine .bind ?_ fun _=>?_
  | split
 all_goals exact .set (h.note hc _ _ fun _=>⟨rfl,rfl,rfl,rfl,nofun⟩)
lemma closeStrings_keeps:Keeps P closeStrings:=by
 refine .modify fun c hc=>h.modifyRule (h.note hc _ _ ?_) fun _=>⟨rfl,rfl⟩
 exact fun _=>⟨rfl,rfl,rfl,rfl,id⟩

/-- What the declarations and uses of strings and rules keep is kept by all actions. -/
lemma perform_keeps (f:Form)(p b:List Value):Keeps P (perform f p b):=by
 unfold perform
 split
 ·exact .pure _
 ·exact .pure _
 split<;>first
  | unfold performDeclaration
  | unfold performSearch
  | unfold performLoop
  | unfold performValue
 all_goals try simp only[importModule,closeRule,declare,addTextModifier,addPlainModifier,xorKey,xorRange,
  base64Modifier,someStrings,someStringsIn,someStringsAt,checkQuantity,checkPercentage,ruleNamed,rulesNamed,openLoop,
  closeLoop,overStrings,declareVariable,overObject,overSet,checkRange,addMember,quantityOf,resolve,memberOf,itemOf,
  callOf,addArgument,argumentLetter,truthOf,textOperationOf,comparisonOf,operandsOf,textLiteral,valueOf,negativeOf,
  arithmeticOf,bitsOf,complementOf]
 all_goals repeat' with_reducible first
  | exact .pure _
  | exact failWith_keeps h _ _
  | exact fail_keeps h _
  | exact warn_keeps h _
  | exact require_keeps h _ _ _
  | exact regexpLiteral_keeps h _ _ _
  | exact useString_keeps h _ _
  | exact stringsNamed_keeps h _
  | exact needAllMatches_keeps h _
  | exact closeStrings_keeps h
  | exact h.rule _ _ _
  | exact declareString_keeps h _ _ _
  | exact .foldlM (fun _ _=>checkString_keeps h _ _ _) _ _
  | refine .map _ ?_
  | refine .get_bind fun c hc=>?_
  | refine .bind ?_ fun _=>?_
  | split
 all_goals first
  | exact fun _ hc=>hc
  | exact .set (h.same hc ⟨rfl,rfl,rfl,rfl⟩ rfl)
  | exact .modify fun _ hc=>h.modifyRule hc fun _=>⟨rfl,rfl⟩
  | exact .modify fun _ hc=>h.same hc ⟨rfl,rfl,rfl,rfl⟩ rfl
end Action
/-! ## Rules that are declared step by step -/
def Compiler.declaring (c:Compiler)(name:String):Compiler:=
 ((perform .openRule [] [.literal (.name name),.none,.ruleFlags false false]).run c).2
def Compiler.concluding (c:Compiler)(condition:Condition.Expression)(required:Nat):Compiler:=
 ((perform .closeRule (List.replicate 9 .none++[.expression (.truth condition required)]) []).run c).2
end PatternScan.Rule
