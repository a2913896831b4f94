import PatternScan.Scan.Verify
namespace PatternScan.Scan
open Limits
structure Progress where
 findings:Findings
 events:Array Event:=#[]
 culprit:Option Nat:=none
namespace Progress
def tell (p:Progress)(e:Event):Progress:={p with events:=p.events.push e}
def skips (p:Progress)(c:SearchSetting)(s:RuleString):Bool:=
 p.findings.silenced.getD s.index false
  || c.fast&&s.flags.singleMatch&&!(p.findings.of s.index).isEmpty
def verify (p:Progress)(c:SearchSetting)(b:Block)(r:Automaton.Registration)(offset:Nat):ResultCode×Progress:=
 let s:=c.set.string r.string
 if p.skips c s then (.success,p)
 else
  let ⟨findings,events,culprit⟩:=p
  let (code,findings):=verified c b r offset findings
  let p:Progress:=⟨findings,events,culprit⟩
  match code with
  | .success=>(.success,p)
  | .tooManyMatches=>
   let p:=p.tell (.tooManyMatches s.index)
   if c.listener.respond (.tooManyMatches s.index)==.proceed then
    (.success,{ p with findings:={ p.findings with
        silenced:=p.findings.silenced.setIfInBounds s.index true } })
   else (.tooManyMatches,{p with culprit:=some s.index})
  | code=>(code,{p with culprit:=some s.index})
def verifyList (c:SearchSetting)(b:Block)(i:Nat):Nat→Option Nat→Progress→ResultCode×Progress
 | 0,_,p=>(.success,p)
 | _,none,p=>(.success,p)
 | allowance+1,some n,p=>
  let r:=c.set.table.pool.getD n default
  if r.backtrack ≤ i then
   match p.verify c b r (i-r.backtrack) with
   | (.success,p)=>verifyList c b i allowance r.next p
   | failure=>failure
  else verifyList c b i allowance r.next p
def stepAllowance:Nat:=atomLength+2

/-- Reads the rest of a block, from index `i` and the state in a slot. Answers the string to be reported as slow. -/
def read (c:SearchSetting)(b:Block)(i slot:Nat)(slow:Option Nat)(p:Progress):ResultCode×Option Nat×Progress:=
 let first:=c.set.table.lists.getD slot none
 if i<b.data.size then
  match first with
  | none=>
   read c b (i+1) (c.set.table.step (b.data.byteAt i) stepAllowance slot) slow p
  | some n=>
   let slow:=
    if slowStringMatches≤(p.findings.of 0).size then
     some (c.set.table.pool.getD n default).string
    else slow
   match verifyList c b i c.set.table.pool.size first p with
   | (.success,p)=>
    read c b (i+1) (c.set.table.step (b.data.byteAt i) stepAllowance slot) slow p
   | (code,p)=>(code,slow,p)
 else
  let (code,p):=verifyList c b i c.set.table.pool.size first p
  (code,slow,p)
termination_by b.data.size-i
def search (c:SearchSetting)(b:Block)(p:Progress):ResultCode×Progress:=
 match read c b 0 0 none p with
 | (.success,some string,p)=>
  let count:=(p.findings.of 0).size
  if slowStringMatches≤count&&count<stringMatches then
   let p:=p.tell (.tooSlow string)
   if c.listener.respond (.tooSlow string)==.proceed then (.success,p)
   else (.tooSlowScanning,p)
  else (.success,p)
 | (code,_,p)=>(code,p)
end Progress
end PatternScan.Scan
