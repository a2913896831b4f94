import PatternScan.Proofs.Condition.World
import PatternScan.Proofs.Scan.Verification
import PatternScan.Scan.Scanner
/-! When the blocks have been searched the conditions are evaluated and the rules are reported. -/
namespace PatternScan.Scan
open List Array ScanState Condition Regex
variable {b:List SourceBlock}{t:Source}
/-! ## What was told before -/
namespace ScanState
def after (told:Array Event)(w:ScanState):ScanState:={w with events:=told++w.events}
variable (told:Array Event){listener:Listener}{memory:Bool}{regexCode:Code}(name:String)(w:ScanState)
lemma load_after:load listener memory name (w.after told)=(load listener memory name w).map id (after told):=by
 unfold load after
 dsimp only
 split
 ·rfl
 ·split
  ·simp
  ·split
   ·simp
   ·split<;>simp
lemma call_after (b:Builtin)(cs:List Cell)(w:ScanState):
 call regexCode b cs (w.after told)=(call regexCode b cs w).map id (after told):=by
 cases b<;>simp[call,after]
lemma load_source (hw:w.source.visit=(b,w.source)):
 (load listener memory name w).2.source=w.source:=by
 unfold load
 grind
def withSource (t:Source)(w:ScanState):ScanState:={w with source:=t}
lemma load_withSource (hw:w.source.visit=(b,w.source))(ht:t.visit=(b,t)):
 load listener memory name (w.withSource t)=(load listener memory name w).map id (withSource t):=by
 unfold load withSource
 dsimp only
 split
 ·rfl
 split
 ·rfl
 ·split
  ·rfl
  ·rw[hw,ht]
   rfl
end ScanState
namespace Scanner
variable (s:Scanner)(cfg:Configuration)(listener:Listener)(told:Array Event)(f:Findings)
 (matched unsatisfied:Array Bool)(rules:List Rule)(source:Source)(p:Progress)(entry:Int64)
lemma report_cons (i:Nat)(r:Rule)(rules:List Rule):∃(wanted:Bool)(event:Event),
  event.report?=some (i,s.ruleMatches f r)∧
  ∀events,s.report listener f matched unsatisfied i (r::rules) events=
   if wanted then
    match listener.respond event with
    | .abort=>(.success,events.push event)
    | .error=>(.callbackError,events.push event)
    | .proceed=>s.report listener f matched unsatisfied (i+1) rules (events.push event)
   else s.report listener f matched unsatisfied (i+1) rules events:=
 ⟨_,if matched.getD i false&&!unsatisfied.getD r.space false then
  .matching i (s.ruleMatches f r) else .notMatching i (s.ruleMatches f r),by split<;>rfl,fun _=>rfl⟩
lemma report_after:∀(i:Nat)(events:Array Event),s.report listener f matched unsatisfied i rules (told++events)=
   (s.report listener f matched unsatisfied i rules events).map id (told++·):=by
 induction rules with
 | nil=>simp[report]
 | cons r rules ih=>
  intro i events
  obtain⟨wanted,e,-,hc⟩:=s.report_cons listener f matched unsatisfied i r rules
  rw[hc,hc,←append_push]
  split
  ·split
   ·rfl
   ·rfl
   ·exact ih _ _
  ·exact ih _ _
lemma conclude_after:s.conclude cfg listener source {p with events:=told++p.events} entry=
  { s.conclude cfg listener source p entry with
    events:=told++(s.conclude cfg listener source p entry).events }:=by
 have hm:(s.environment cfg listener source.fileSize p.findings entry).Maps
  (s.environment cfg listener source.fileSize p.findings entry) (ScanState.after told):=
  ⟨.refl _,rfl,rfl,fun _=>rfl,rfl,fun _ _=>rfl,load_after told,call_after told,fun _ _ _=>rfl⟩
 have he:=hm.evaluate {objects:=s.objects,source:=source,events:=p.events}
 simp only[conclude]
 rw[ScanState.after]at he
 rw[he]
 rcases evaluate _ _ with⟨code,state⟩
 simp only[Prod.map,id]
 split
 ·simp only[State.map,ScanState.after,report_after,Prod.map,id]
 ·rfl
lemma conclude_objects:∃objects,(s.conclude cfg listener source p entry).scanner={s with objects:=objects}:=by
 simp only[conclude]
 split<;>exact⟨_,rfl⟩

/-! ## The data of the conclusion -/
lemma conclude_source {S:Source}{bl:List SourceBlock}(hS:S.visit=(bl,S))
 (ht:t.visit=(bl,t))(hs:t.fileSize=S.fileSize)(p:Progress)(entry:Int64):
 s.conclude cfg listener t p entry={s.conclude cfg listener S p entry with source:=t}:=by
 have hk:(s.environment cfg listener S.fileSize p.findings entry).world.Keeps fun w=>w.source=S:=by
  refine⟨fun name w hw=>?_,fun b cs w hw=>?_,fun kind o w hw=>?_⟩
  ·subst hw
   exact load_source name w hS
  ·simp only[environment,world,call,hw,hS]
  ·simp only[environment,world,ScanState.read,hw,hS]
 have hm:((s.environment cfg listener S.fileSize p.findings entry).restrict hk).Maps
  (s.environment cfg listener t.fileSize p.findings entry)
  (fun w=>withSource t w.1):=by
  refine⟨.refl _,rfl,?_,fun _=>rfl,rfl,fun _ _=>rfl,?_,?_,?_⟩
  ·simp only[hs]
   rfl
  ·rintro name ⟨w,rfl⟩
   exact load_withSource name w hS ht
  ·rintro b cs ⟨w,rfl⟩
   simp only[environment,Environment.restrict,world,call,withSource,hS,ht]
   rfl
  ·rintro kind o ⟨w,rfl⟩
   simp only[environment,Environment.restrict,world,ScanState.read,withSource,hS,ht]
   rfl
 have he:=evaluate_map hk hm (w:={objects:=s.objects,source:=S,events:=p.events}) rfl
 simp only[withSource]at he
 simp only[conclude]
 rw[he]
 rcases evaluate _ _ with⟨code,state⟩
 simp only[Prod.map,id]
 split<;>rfl

/-! ## What is reported -/

/-- A rule is reported with what has been found of its strings. -/
def Reports (f:Findings)(e:Event):Prop:=
 ∀i found,e.report?=some (i,found)→∃r,s.set.rules[i]?=some r∧found=s.ruleMatches f r
lemma report_reports:∀(i:Nat)(events:Array Event),rules=s.set.rules.toList.drop i→(∀e∈events,s.Reports f e)→
  ∀e∈(s.report listener f matched unsatisfied i rules events).2,s.Reports f e:=by
 have hp {events:Array Event}{event:Event}(h:∀e∈events,s.Reports f e)
  (he:s.Reports f event):∀e∈events.push event,s.Reports f e:=by
  grind
 induction rules with
 | nil=>exact fun i events _ h=>hp h nofun
 | cons r rules ih=>
  intro i events hru h
  have hr:s.set.rules[i]?=some r:=by
   have hh:=congrArg head? hru
   rw[head?_drop,getElem?_toList]at hh
   exact hh.symm
  have hrs:rules=s.set.rules.toList.drop (i+1):=by rw[←tail_drop,←hru,tail_cons]
  obtain⟨wanted,event,hre,hc⟩:=s.report_cons listener f matched unsatisfied i r rules
  have he:s.Reports f event:=by
   intro k fn hk
   rw[hre]at hk
   cases hk
   exact⟨r,hr,rfl⟩
  rw[hc]
  grind
lemma conclude_reports {p:Progress}(hp:∀e∈p.events,e.report?=none)
 (entry:Int64):∀e∈(s.conclude cfg listener source p entry).events,s.Reports p.findings e:=by
 have hk:(s.environment cfg listener source.fileSize p.findings entry).world.Keeps
  fun w=>∀e∈w.events,e.report?=none:=by
  have hpu {events:Array Event}{event:Event}(h:∀e∈events,e.report?=none)
   (hev:event.report?=none):∀e∈events.push event,e.report?=none:=by
   grind
  refine⟨fun name w hw=>?_,fun b cs w hw=>?_,fun _ _ _ hw=>hw⟩
  ·simp only[environment,world,load]
   split
   ·exact hw
   ·split
    ·exact hpu hw rfl
    ·split
     ·exact hpu hw rfl
     ·exact hpu (hpu hw rfl) rfl
  ·cases b
   case console=>exact hpu hw rfl
   all_goals exact hw
 have hen:=evaluate_keeps hk (w:={objects:=s.objects,source:=source,events:=p.events}) hp
 have hn {events:Array Event}(h:∀e∈events,e.report?=none):∀e∈events,s.Reports p.findings e:=by
  intro e he i fn hf
  rw[h e he]at hf
  cases hf
 simp only[conclude]
 split
 ·exact report_reports _ listener _ _ _ _ 0 _ rfl (hn hen)
 ·exact hn hen

/-! ## The codes of the conclusion -/
lemma report_code_ne:∀(i:Nat)(events:Array Event),
  (s.report listener f matched unsatisfied i rules events).1≠.blockNotReady:=by
 induction rules with
 | nil=>exact fun _ _=>nofun
 | cons r rules ih=>
  intro i events
  obtain⟨wanted,e,-,hc⟩:=s.report_cons listener f matched unsatisfied i r rules
  grind
end Scanner
lemma ScanState.load_code (listener:Listener)(memory:Bool)(name:String)(w:ScanState):
 (load listener memory name w).1=.success∨
 (load listener memory name w).1=.callbackError∨
 (load listener memory name w).1=.unknownModule:=by
 unfold load
 grind
namespace Scanner
variable (s:Scanner)(cfg:Configuration)(listener:Listener)
lemma ne_of_fails {f:Findings}{sz:Option Int64}{entry:Int64}{c:ResultCode}
 (h:Fails (s.environment cfg listener sz f entry) c):c≠.blockNotReady:=by
 cases h with
 | overflow | field | fatal=>exact nofun
 | pattern address flags input=>
  rcases Run.code_cases (sober_run _ address flags input) with h|h|h <;>
   exact h▸nofun
 | load name w=>rcases load_code listener s.flags.memory name w with h|h|h<;>exact h▸nofun
 | call h=>cases h
lemma conclude_code_ne (source:Source)(p:Progress)(entry:Int64):
 (s.conclude cfg listener source p entry).code≠.blockNotReady:=by
 have hc (w:ScanState):(evaluate (s.environment cfg listener source.fileSize p.findings entry) w).1
   ≠ .blockNotReady:=by
  rcases run_fails stepLimit _ with h|h
  ·exact h▸nofun
  ·exact ne_of_fails s cfg listener h
 simp only[conclude]
 split
 ·exact report_code_ne _ _ _ _ _ _ _ _
 ·exact hc _
end Scanner
end PatternScan.Scan
