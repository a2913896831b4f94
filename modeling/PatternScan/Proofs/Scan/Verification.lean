import PatternScan.Proofs.Regex.Bounds
import PatternScan.Scan.Search
/-! A search changes the findings by accepting matches that lie in the block, and by silencing strings. -/
namespace PatternScan.Scan
open Array List Regex.Run Automaton Regex Regex.GapMachine ChainLink Bytes Findings
variable {bc j i:Nat}{α:Type}{l:MatchList}{R:Findings→Findings→Prop}
def Event.matches:Event→RuleMatches
 | .matching _ found | .notMatching _ found=>found
 | _=>[]
def Event.report? : Event→Option (Nat×RuleMatches)
 | .matching i found | .notMatching i found=>some (i,found)
 | _=>none
lemma Event.matches_eq (e:Event):e.matches=e.report?.elim [] (·.2):=by cases e<;>rfl
section
variable {code:Code}{s:RuleString}{data:Bytes}{offset address:Nat}{flags:RunFlags}
variable (code s data offset address flags) in
lemma sober_runCode:Sober (runCode code s data offset address flags).result:=by
 unfold runCode
 split
 ·exact (run_within _ _ _ _).1
 ·exact sober_run _ _ _ _
lemma runCode_code:(runCode code s data offset address flags).code≠.blockNotReady∧
 (runCode code s data offset address flags).code≠.tooManyMatches:=by
 rcases code_cases (sober_runCode code s data offset address flags) with h|h|h <;>
  simp[h]
lemma length_le_of_mem_runCode (hfi:code.Firm){n:Nat}(h:n∈(runCode code s data offset address flags).lengths):
 n ≤ if flags.backwards then offset else data.size-offset:=by
 unfold runCode at h
 split at h
 ·exact ((run_within _ _ _ _).2 n h).trans (min_le_left _ _)
 ·exact (le_reach_of_mem_run hfi.run h).trans ((Nat.sub_le _ _).trans (min_le_left _ _))
lemma add_shownLength_le {b:Block}{w:Bool}{fr:Int}(hfi:code.Firm)(ho:offset≤b.data.size)
 (h:¬(((runCode code s b.data offset address (runFlags s w)).shownLength? s.flags.linear
  false).getD fr==-1)):
 offset+(((runCode code s b.data offset address (runFlags s w)).shownLength? s.flags.linear
  false).getD fr).toNat≤b.data.size:=by
 have hle (n:Nat)(hn:n∈(runCode code s b.data offset address (runFlags s w)).lengths):
  n≤b.data.size-offset:=length_le_of_mem_runCode hfi hn
 unfold shownLength? last? at *
 rw[Bool.and_false]at *
 simp only[Bool.false_eq_true,if_false,Option.getD_some]at *
 cases hl:(runCode code s b.data offset address (runFlags s w)).lengths.back? with
 | none=>simp[hl]at h
 | some n=>
  have hn:=hle n (mem_of_back? hl)
  simp only[Option.elim,Int.ofNat_eq_natCast]
  omega
lemma textLength_le (v:UInt8→UInt8)(data t:Bytes)(w:Nat)(fl:UInt8)
 (offset:Nat):textLength v data t w fl offset≤data.size-offset:=by
 unfold textLength
 grind
lemma xorLength_le (data t:Bytes)(w offset:Nat):
 (xorLength data t w offset).1≤data.size-offset:=by
 unfold xorLength
 dsimp only
 split
 ·exact zero_le
 ·exact textLength_le _ _ _ _ _ _
lemma add_literalLength_le (h:offset+bc≤data.size):
 offset+(literalLength s bc data offset).1≤data.size:=by
 have ht (view:UInt8→UInt8)(width:Nat):=textLength_le view data s.text width 0 offset
 have hx (width:Nat):=xorLength_le data s.text width offset
 have hle:(literalLength s bc data offset).1≤data.size-offset:=by
  have h1:=ht lower 1
  have h2:=ht lower 2
  have h3:=ht id 1
  have h4:=ht id 2
  have h5:=hx 1
  have h6:=hx 2
  unfold literalLength
  dsimp only
  split_ifs<;>omega
 omega
end
section
variable {c:SearchSetting}{b:Block}{offset:Nat}{fits:Prop}
/-- Matches of a string that start in a block, and end there if its atom fits. -/
structure Inside (b:Block)(j:Nat)(fits:Prop)(x:ResultCode×List Hit):Prop where
 code:x.1≠.blockNotReady∧x.1≠.tooManyMatches
 starts:∀h∈x.2,h.string=j∧h.offset<b.data.size
 ends:fits→∀h∈x.2,h.offset+h.length≤b.data.size
lemma Inside.none {code:ResultCode}(h:code≠.blockNotReady∧code≠.tooManyMatches):
 Inside b j fits (code,[]):=⟨h,nofun,fun _=>nofun⟩
lemma Inside.append {code cd:ResultCode}{hs hs':List Hit}(h:Inside b j fits (code,hs))
 (h':Inside b j fits (cd,hs')):Inside b j fits (cd,hs++hs'):=
 ⟨h'.code,forall_mem_append.2 ⟨h.starts,h'.starts⟩,fun hf=>forall_mem_append.2 ⟨h.ends hf,h'.ends hf⟩⟩
lemma literalHits_inside (ho:offset<b.data.size):
 Inside b j (offset+bc≤b.data.size∧fits) (.success,literalHits c b j bc offset):=by
 unfold literalHits
 dsimp only
 split
 ·exact .none ⟨nofun,nofun⟩
 ·exact⟨⟨nofun,nofun⟩,by simp[ho],fun hf=>by simp[add_literalLength_le hf.1]⟩
lemma runHits_inside (e:Entry)(w:Bool)(fr:Int)(ho:offset<b.data.size):
 let x:=runHits c b j e offset w fr
 Inside b j (fits∧c.set.regexCode.Firm) (x.1,x.2.2):=by
 unfold runHits
 dsimp only
 split
 ·exact .none (by simp)
 split
 ·exact .none runCode_code
 split
 ·exact .none (by simp)
 next hne=>
 split
 ·exact⟨by simp,by simp[ho],fun hf=>by simp[add_shownLength_le hf.2 ho.le hne]⟩
 refine⟨runCode_code,fun h hh=>?_,fun hf h hh=>?_⟩
 ·obtain⟨n,-,rfl⟩:=mem_map.1 hh
  exact⟨rfl,(Nat.sub_le _ _).trans_lt ho⟩
 ·obtain⟨n,hn,rfl⟩:=mem_map.1 hh
  have hle:n≤offset:=length_le_of_mem_runCode hf.2 (mem_toList_iff.1 hn)
  have he:=add_shownLength_le hf.2 ho.le hne
  dsimp only
  omega
lemma patternHits_inside (e:Entry)(ho:offset<b.data.size):
 Inside b j (fits∧c.set.regexCode.Firm) (patternHits c b j e offset):=by
 have hr (wide:Bool)(forward:Int):Inside b j (fits∧c.set.regexCode.Firm) _:=
  runHits_inside (c:=c) e wide forward ho
 unfold patternHits
 dsimp only
 generalize hf:(if ((c.set.string j).flags.ascii||(c.set.string j).flags.base64
  || (c.set.string j).flags.base64Wide) then runHits c b j e offset false (-1)
  else (.success,-1,[]))=first
 have hi:Inside b j (fits∧c.set.regexCode.Firm) (first.1,first.2.2):=by
  rw[←hf]
  split
  ·exact hr _ _
  ·exact .none ⟨nofun,nofun⟩
 split
 ·exact hi.append (hr _ _)
 ·exact hi
variable (c b) in
lemma hits_fit (r:Registration)(offset:Nat):
 Inside b r.string (offset+r.backtrack≤b.data.size∧c.set.regexCode.Firm) (hits c b r offset):=by
 unfold hits
 dsimp only
 split
 ·exact .none ⟨nofun,nofun⟩
 next hs=>
 have ho:offset<b.data.size:=by
  rw[Bool.or_eq_true,decide_eq_true_eq,not_or]at hs
  exact not_le.1 hs.1
 split
 ·exact literalHits_inside ho
 ·exact patternHits_inside _ ho
lemma hits_inside (r:Registration)(offset:Nat):(hits c b r offset).1≠.tooManyMatches∧
  ∀h∈(hits c b r offset).2,h.string=r.string∧h.offset<b.data.size:=
 ⟨(hits_fit c b r offset).code.2,(hits_fit c b r offset).starts⟩
end
section
lemma getD_modify_ne (l:Array α)(f:α→α)(h:i≠j)(d:α):(l.modify i f).getD j d=l.getD j d:=by
 rw[getD_eq_getD_getElem?,Array.getElem?_modify,if_neg h,←getD_eq_getD_getElem?]
lemma getD_setIfInBounds_ne (l:Array α)(a:α)(h:i≠j)(d:α):
 (l.setIfInBounds i a).getD j d=l.getD j d:=by
 rw[getD_eq_getD_getElem?,getElem?_setIfInBounds_ne h,←getD_eq_getD_getElem?]
lemma getD_modify_cases (l:Array α)(f:α→α)(i j:Nat)(d:α):
 (l.modify i f).getD j d=l.getD j d∨i=j∧(l.modify i f).getD j d=f (l.getD j d):=by
 simp only[getD_eq_getD_getElem?,Array.getElem?_modify]
 grind
def Match.bare (m:Match):Match:={m with followers:=0}
def MatchList.Among (l l':MatchList):Prop:=
 (l'.toList.map Match.bare).Sublist (l.toList.map Match.bare)
lemma MatchList.Among.exists_mem {l':MatchList}{x:Match}(h:l.Among l')(hx:x∈l'):∃y∈l,y.bare=x.bare:=
 mem_map.1 (h.subset (mem_map_of_mem hx))
lemma MatchList.Among.remove (l:MatchList)(k:Nat):l.Among (l.remove k):=by
 rw[Among,LinkedList.toList_remove,LinkedList.toList]
 exact (erase_sublist.map _).map _
structure Narrows (J:Nat→Prop)(lists lists':Array MatchList):Prop where
 size:lists'.size=lists.size
 same:∀i,¬J i→lists'.getD i .empty=lists.getD i .empty
 among:∀i,(lists.getD i .empty).Among (lists'.getD i .empty)
namespace Narrows
variable {J:Nat→Prop}{lists lists' lists'':Array MatchList}
lemma refl (J:Nat→Prop)(lists:Array MatchList):Narrows J lists lists:=
 ⟨rfl,fun _ _=>rfl,fun _=>.refl _⟩
lemma trans (h:Narrows J lists lists')(h':Narrows J lists' lists''):Narrows J lists lists'':=
 ⟨h'.size.trans h.size,fun i hi=>(h'.same i hi).trans (h.same i hi),fun i=>(h'.among i).trans (h.among i)⟩
lemma ne (hj:J j)(hi:¬J i):j≠i:=fun h=>hi (h▸hj)
lemma modify (hj:J j){f:MatchList→MatchList}(hf:∀l:MatchList,l.Among (f l)):
 Narrows J lists (lists.modify j f):=by
 refine⟨size_modify,fun i hi=>getD_modify_ne _ _ (ne hj hi) _,fun i=>?_⟩
 rcases getD_modify_cases lists f j i .empty with h|⟨-,h⟩
 ·rw[h]
  exact .refl _
 ·rw[h]
  exact hf _
lemma set (hj:J j)(hl:(lists.getD j .empty).Among l):
 Narrows J lists (lists.setIfInBounds j l):=by
 refine⟨size_setIfInBounds,fun i hi=>getD_setIfInBounds_ne _ _ (ne hj hi) _,fun i=>?_⟩
 by_cases hji:j=i
 ·have hg:(lists.setIfInBounds j l).getD j .empty=if j<lists.size then l else .empty:=by
   rw[getD_eq_getD_getElem?,getElem?_setIfInBounds_self]
   split<;>rfl
  rw[←hji,hg]
  by_cases hlt:j<lists.size
  ·rw[if_pos hlt]
   exact hl
  ·rw[if_neg hlt]
   exact nil_sublist _
 ·rw[getD_setIfInBounds_ne _ _ hji]
  exact .refl _
lemma follow (hj:J j)(k n:Nat):
 Narrows J lists (lists.modify j fun l=>l.modify k fun m=>{m with followers:=n}):=by
 refine modify hj fun l=>?_
 have hs:(l.modify k fun m=>{m with followers:=n}).toList.map Match.bare=l.toList.map Match.bare:=by
  rw[LinkedList.toList_modify,LinkedList.toList,List.map_map,List.map_map]
  refine map_congr_left fun i _=>?_
  dsimp only[Function.comp]
  split<;>rfl
 rw[MatchList.Among,hs]
lemma noteFollowers (ln:List ChainLink):(∀l∈ln,J l.previous)→∀lists j k n,J j→
 Narrows J lists (noteFollowers lists j k n ln):=by
 induction ln with
 | nil=>exact fun _ lists j k n hj=>follow hj k n
 | cons l r ih=>
  intro hl lists j k n hj
  obtain⟨hp,hr⟩:=forall_mem_cons.1 hl
  rw[Scan.noteFollowers]
  split
  ·exact .refl J lists
  ·refine foldlRecOn _ _ (follow hj k n) fun lists' h i _=>?_
   split
   ·exact h.trans (ih hr _ _ _ _ hp)
   ·exact h
end Narrows
lemma prune_among (ln:ChainLink)(lw offset:Nat)(ks:List Nat)(l:MatchList):
 l.Among (prune ln lw offset ks l).2:=by
 induction ks generalizing l with
 | nil=>exact .refl _
 | cons k _ ih=>
  rw[prune]
  split
  ·exact (ih _).trans (MatchList.Among.remove l k)
  split
  ·exact .refl _
  ·exact ih l
end
section
variable {set:RuleSet}{room:Int}{s:RuleString}{b:Block}
lemma insertInto_code_ne (lists:Array MatchList)(i:Nat)(m:Match)(r:Bool):
 (insertInto lists i m r).1≠.blockNotReady:=by
 unfold insertInto
 split<;>exact nofun
lemma insertInto_cases (lists:Array MatchList)(i k:Nat)(m:Match)(replace:Bool):
 (insertInto lists i m replace).2.getD k .empty=lists.getD k .empty∨i=k∧
  (insertInto lists i m replace).2.getD k .empty=(lists.getD k .empty).insert m replace:=by
 unfold insertInto
 split
 ·exact .inl rfl
 ·exact getD_modify_cases _ _ _ _ _
lemma Findings.of_confirm (f:Findings)(s:RuleString)(m:Match)(replace:Bool)(k:Nat):
 (f.confirm s m replace).2.of k=f.of k∨
  s.index=k∧(f.confirm s m replace).2.of k=(f.of k).insert m replace:=insertInto_cases ..
lemma Findings.waiting_wait (f:Findings)(i:Nat)(m:Match)(k:Nat):(f.wait i m).2.waiting k=f.waiting k∨
  i=k∧(f.wait i m).2.waiting k=(f.waiting k).insert m false:=insertInto_cases ..

/-- The steps that a search may take from one state to another. -/
structure Verifies (R:Findings→Findings→Prop)(f:Findings)(x:ResultCode×Findings):
 Prop where
 code:x.1≠.blockNotReady
 findings:R f x.2
def Chained (set:RuleSet)(s:RuleString)(i:Nat):Prop:=
 ∃l,(s.link=some l∨l∈linksFrom set.strings set.strings.size s.index)∧
  (i=l.previous∨i=(set.string l.previous).index)
def Match.completed (x m:Match)(room:Int):Match:=
 { x with
   length:=m.offset+m.length-x.offset
   shown:=min ((m.offset+m.length-x.offset:Nat):Int) room
   block:=m.block,start:=x.offset }

/-- What holds of findings still holds after each of the changes that a match of a string makes. -/
structure Keeps (set:RuleSet)(room:Int)(s:RuleString)(m:Match)(I:Findings→Prop):
 Prop where
 narrow:∀{f:Findings} {lists},I f→Narrows (Chained set s) f.pending lists→I {f with pending:=lists}
 wait:∀{f:Findings},I f→I (f.wait s.index m).2
 confirm:∀{f:Findings},I f→I (f.confirm s m s.flags.greedy).2
 complete:∀{f0 f:Findings} {l x},I f0→I f→l∈linksFrom set.strings set.strings.size s.index→
  x∈f0.waiting (set.string l.previous).index→
  I (f.confirm (set.string l.previous) (x.completed m room) false).2
namespace Keeps
variable {m:Match}{I:Findings→Prop}{f f0:Findings}
lemma pruneFor (h:Keeps set room s m I)(hf:I f):I (f.pruneFor s m).2:=by
 unfold Findings.pruneFor
 split
 ·exact hf
 ·next l hl=>
  exact h.narrow hf (.set ⟨l,.inl hl,.inl rfl⟩ (prune_among ..))
lemma noteAll (h:Keeps set room s m I)(hf:I f){l:ChainLink}{r:List ChainLink}
 (hl:linksFrom set.strings set.strings.size s.index=l::r)(offset:Nat):
 I (f.noteAll l r offset):=by
 have hc:∀x∈l::r,Chained set s x.previous:=
  fun x hx=>⟨x,.inr (hl▸hx),.inl rfl⟩
 obtain⟨hfs,hr⟩:=forall_mem_cons.1 hc
 refine h.narrow hf (foldlRecOn _ _ (.refl _ _) fun lists hli j _=>?_)
 split
 ·exact hli.trans (.noteFollowers r hr _ _ _ _ hfs)
 ·exact hli
lemma confirmComplete (h:Keeps set room s m I)(hf0:I f0){l:ChainLink}
 (hl:l∈linksFrom set.strings set.strings.size s.index)(ln:Nat)(ks:List Nat)
 (hks:∀k∈ks,k∈(f0.waiting (set.string l.previous).index).keys):∀{f},I f→
 (∀k,(f.waiting (set.string l.previous).index).get k=(f0.waiting (set.string l.previous).index).get k)→
 let r:=confirmComplete (set.string l.previous) ln m.block (m.offset+m.length) room ks f
 r.1≠.blockNotReady ∧ I r.2:=by
 induction ks with
 | nil=>exact fun hf _=>⟨nofun,hf⟩
 | cons k ks ih=>
  intro f hf hget
  obtain⟨hk,hr⟩:=forall_mem_cons.1 hks
  have hx:(f.waiting (set.string l.previous).index).get k∈f0.waiting (set.string l.previous).index:=by
   rw[hget]
   exact mem_map_of_mem hk
  rw[Scan.confirmComplete]
  split
  ·dsimp only
   have hs:=h.complete hf0 (h.narrow hf (.modify ⟨l,.inr hl,.inr rfl⟩ (.remove · k))) hl hx
   split
   ·next f' hf'=>
    rw[Match.completed,hf']at hs
    refine ih hr hs fun i=>?_
    rw[←hget]
    have hw:f'.pending=f.pending.modify (set.string l.previous).index (·.remove k):=
     (congrArg (·.2.pending) hf').symm
    rw[Findings.waiting,hw]
    rcases getD_modify_cases f.pending (·.remove k) (set.string l.previous).index
     (set.string l.previous).index .empty with heq|⟨-,heq⟩
    ·rw[heq,Findings.waiting]
    ·rw[heq,LinkedList.get_remove,Findings.waiting]
   ·exact⟨insertInto_code_ne _ _ _ _,hs⟩
  ·exact ih hr hf hget
lemma accept {offset ln:Nat}{key:UInt8}
 (h:Keeps set room s (found room s b offset ln key) I)(w:Bool)(hf:I f):
 (accept set room s b offset ln w key f).1≠.blockNotReady∧
 I (accept set room s b offset ln w key f).2:=by
 unfold Scan.accept
 split
 ·exact⟨nofun,hf⟩
 dsimp only
 split
 ·have hp:=h.pruneFor hf
  unfold addPart
  generalize f.pruneFor s (found room s b offset ln key)=x at hp⊢
  dsimp only at hp⊢
  split
  ·exact⟨nofun,hp⟩
  split
  ·next l r _ hl=>
   have hn:=h.noteAll hp hl offset
   refine h.confirmComplete hn ?_ _ _ (fun _=>id) hn fun _=>rfl
   rw[hl]
   exact getLast_mem _
  ·exact⟨insertInto_code_ne _ _ _ _,h.wait hp⟩
 ·exact⟨insertInto_code_ne _ _ _ _,h.confirm hf⟩
end Keeps
lemma accept_verifies (offset l:Nat)(w:Bool)(key:UInt8)(f:Findings):
 Verifies (fun f f'=>f'.silenced=f.silenced) f (accept set room s b offset l w key f):=by
 have hk:Keeps set room s (found room s b offset l key)
  fun f'=>f'.silenced=f.silenced:=⟨fun h _=>h,id,id,fun _ h _ _=>h⟩
 obtain⟨hc,hs⟩:=hk.accept w rfl
 exact⟨hc,hs⟩

/-- What holds between the findings before and after each match that is accepted in a block. -/
structure Accepts (set:RuleSet)(room:Int)(b:Block)(s:RuleString)
 (R:Findings→Findings→Prop):Prop where
 refl:∀f,R f f
 trans:∀{f f' f''},R f f'→R f' f''→R f f''
 accept:∀f offset length wide key,offset<b.data.size → (set.regexCode.Firm → offset+length≤b.data.size)→
  R f (accept set room s b offset length wide key f).2
namespace Accepts
variable {c:SearchSetting}
lemma takeAll {j:Nat}(h:Accepts c.set c.room b (c.set.string j) R)(hs:List Hit)
 (hstr:∀x∈hs,x.string=j ∧ x.offset<b.data.size)
 (hen:c.set.regexCode.Firm→∀x∈hs,x.offset+x.length≤b.data.size):
 ∀f,Verifies R f (takeAll c b hs f):=by
 induction hs with
 | nil=>exact fun f=>⟨nofun,h.refl f⟩
 | cons x hs ih=>
  intro f
  obtain⟨⟨rfl,ho⟩,hr⟩:=forall_mem_cons.1 hstr
  have hst:R f (x.take c b f).2:=
   h.accept f x.offset x.length x.wide x.key ho fun hf=>hen hf x mem_cons_self
  rw[Scan.takeAll]
  split
  ·next f' hf=>
   rw[hf]at hst
   have hl:=ih hr (fun hf=>(forall_mem_cons.1 (hen hf)).2) f'
   exact⟨hl.code,h.trans hst hl.findings⟩
  ·exact⟨(accept_verifies _ _ _ _ _).code,hst⟩
lemma verified {r:Registration}(h:Accepts c.set c.room b (c.set.string r.string) R)
 {offset:Nat}(he:offset+r.backtrack≤b.data.size)(f:Findings):
 Verifies R f (verified c b r offset f):=by
 have hin:=hits_fit c b r offset
 have ht:=h.takeAll _ hin.starts (fun hf=>hin.ends ⟨he,hf⟩) f
 refine⟨?_,ht.findings⟩
 unfold Scan.verified
 dsimp only
 split
 ·exact hin.code.1
 ·exact ht.code
end Accepts
end
namespace Progress
variable {c:SearchSetting}{b:Block}
lemma verify_eq (p:Progress)(r:Registration)(offset:Nat):p.verify c b r offset=
  if p.skips c (c.set.string r.string) then (.success,p)
  else
   let x:=verified c b r offset p.findings
   let s:=c.set.string r.string
   match x.1 with
   | .success=>(.success,{p with findings:=x.2})
   | .tooManyMatches=>
    let events:=p.events.push (.tooManyMatches s.index)
    if c.listener.respond (.tooManyMatches s.index)==.proceed then
     (.success,⟨{x.2 with silenced:=x.2.silenced.setIfInBounds s.index true},events,p.culprit⟩)
    else (.tooManyMatches,⟨x.2,events,some s.index⟩)
   | code=>(code,⟨x.2,p.events,some s.index⟩):=rfl

/-- What holds between the states before and after a part of a search. Meanwhile no matches are
told. -/
structure Searches (R:Findings→Findings→Prop)(p:Progress)(x:ResultCode×Progress):
 Prop where
 code:x.1≠.blockNotReady
 findings:R p.findings x.2.findings
 events:∀e∈x.2.events,e∈p.events∨e.report?=none
lemma Searches.rfl {s:RuleString}(hR:Accepts c.set c.room b s R)(p:Progress):Searches R p (.success,p):=
 ⟨nofun,hR.refl _,fun _ he=>.inl he⟩
lemma Searches.trans {s:RuleString}{p p':Progress}{code:ResultCode}
 {x:ResultCode×Progress}(h:Searches R p (code,p'))
 (hR:Accepts c.set c.room b s R)(h':Searches R p' x):Searches R p x:=
 ⟨h'.code,hR.trans h.findings h'.findings,fun e he=>(h'.events e he).elim (h.events e) .inr⟩
lemma verify_accepts {r:Registration}(h:Accepts c.set c.room b (c.set.string r.string) R)(hsil:∀f,R f
  {f with silenced:=f.silenced.setIfInBounds (c.set.string r.string).index true})
 {offset:Nat}(hen:offset+r.backtrack≤b.data.size)(p:Progress):
 Searches R p (p.verify c b r offset):=by
 rw[verify_eq]
 split
 ·exact .rfl h p
 have hv:=h.verified hen p.findings
 have ht:∀e∈p.events.push (.tooManyMatches (c.set.string r.string).index),e∈p.events∨e.report?=none:=by
  intro e he
  rcases mem_push.1 he with he|rfl
  ·exact .inl he
  ·exact .inr (by rfl)
 dsimp only
 split
 ·exact⟨nofun,hv.findings,fun _ he=>.inl he⟩
 ·split
  ·exact⟨nofun,h.trans hv.findings (hsil _),ht⟩
  ·exact⟨nofun,hv.findings,ht⟩
 ·exact⟨hv.code,hv.findings,fun _ he=>.inl he⟩
variable (h:∀j,Accepts c.set c.room b (c.set.string j) R)
 (hsil:∀f i,R f {f with silenced:=f.silenced.setIfInBounds i true})
include h hsil
lemma verifyList_accepts (hi:i≤b.data.size)(a:Nat):
 ∀(fr:Option Nat)(p:Progress),Searches R p (verifyList c b i a fr p):=by
 induction a with
 | zero=>exact fun fr p=>.rfl (h 0) p
 | succ a ih=>
  intro fr p
  cases fr with
  | none=>exact .rfl (h 0) p
  | some n=>
   rw[verifyList]
   split
   ·next hb=>
    have hv:Searches R p (p.verify c b (c.set.table.pool.getD n default)
     (i-(c.set.table.pool.getD n default).backtrack)):=
     verify_accepts (h _) (hsil · _) (by omega) p
    split
    ·next p' hp'=>
     rw[hp']at hv
     exact hv.trans (h 0) (ih _ p')
    ·exact hv
   ·exact ih _ p
lemma read_accepts (i sl:Nat)(slo:Option Nat)(p:Progress)(hi:i≤b.data.size):
 Searches R p ((read c b i sl slo p).map id Prod.snd):=by
 have hl (i:Nat) (hi:i≤b.data.size) (sl:Nat) (p:Progress):=
  verifyList_accepts h hsil hi c.set.table.pool.size (c.set.table.lists.getD sl none) p
 fun_induction read c b i sl slo p with
 | case1 i _ _ p _ _ _ ih=>exact ih (by omega)
 | case2 i sl _ p _ _ n _ _ _ hp' ih=>
  have hf:=hl i hi sl p
  rw[hp']at hf
  exact hf.trans (h 0) (ih (by omega))
 | case3 i sl _ p _ _ n _ _ _ _ _ hp'=>
  have hf:=hl i hi sl p
  rw[hp']at hf
  exact hf
 | case4 i sl _ p _ _ _ _ hp'=>
  have hla:=hl i hi sl p
  rw[hp']at hla
  exact hla
lemma search_accepts (p:Progress):Searches R p (p.search c b):=by
 have hr:=read_accepts h hsil 0 0 none p zero_le
 unfold search
 generalize read c b 0 0 none p=x at hr
 obtain⟨code,sl,p'⟩:=x
 split
 ·next string p'' heq=>
  cases heq
  have ht:∀e∈(p'.tell (.tooSlow string)).events,e∈p.events ∨ e.report?=none:=by
   intro e he
   rcases mem_push.1 he with he|rfl
   ·exact hr.events e he
   ·exact .inr (by rfl)
  dsimp only
  split
  ·split
   ·exact⟨nofun,hr.findings,ht⟩
   ·exact⟨nofun,hr.findings,ht⟩
  ·exact⟨nofun,hr.findings,hr.events⟩
 ·next heq=>
  cases heq
  exact hr
end Progress
end PatternScan.Scan