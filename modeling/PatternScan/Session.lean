import PatternScan.Arena.Stream
import PatternScan.Rule.Source
import PatternScan.Scan.Scanner
namespace PatternScan
open Scan Rule Scan.ScanFlags
open Scan (Configuration Scanner Listener Event)
structure SharedScanner where
 set:Nat
 scanner:Scanner
structure Session where
 configuration:Configuration:={}
 compiler:Option Compiler:=none
 compiled:Option Nat:=none
 sets:Array RuleSet:=#[]
 current:Option Nat:=none
 stored:Option StoredRules:=none
 scanners:List (Nat×SharedScanner):=[]
structure SourceText where
 text:Bytes
 space:String:="default"
 file:Option String:=none
namespace Session
def startCompiler (s:Session)(setting:Setting):Session:=
 {s with compiler:=some {setting:=setting},compiled:=none}
def setQuality (s:Session)(rule:QualityRule)(warning:Int):Option Session:=
 s.compiler.map fun c=>
  { s with compiler:=some { c with
     setting:={c.setting with quality:=rule,qualityWarning:=warning} } }

/-- Adds a source, unless an earlier one had errors or the rule set has been given. The compiler then holds messages
about this source only. -/
def addSource (s:Session)(source:SourceText):Option (Compiler×Session):=
 match s.compiler,s.compiled with
 | some c,none=>
  if c.errors != 0 then none
  else
   let setting:={c.setting with stringLimit:=s.configuration.stringsPerRule}
   let c:={c with setting:=setting,messages:=#[]}
   let c:=c.add table source.space source.file source.text
   some (c,{s with compiler:=some c})
 | _,_=>none
def ruleSet? (s:Session):Option RuleSet:=s.current.bind (s.sets[·]?)
def adopt (s:Session)(set:RuleSet):Session:=
 {s with sets:=s.sets.push set,current:=some s.sets.size}
def takeRules (s:Session):Option (Bool×Session):=
 match s.compiler with
 | none=>none
 | some c=>
  if c.errors != 0 then none
  else
   match s.compiled with
   | some n=>some (s.current==some n,{s with current:=some n})
   | none=>some (false,{s.adopt c.ruleSet with compiled:=some s.sets.size})
def modifyRules (s:Session)(f:RuleSet→RuleSet):Session:=
 match s.current with
 | some n=>{s with sets:=s.sets.modify n f}
 | none=>s
def setDisabled (s:Session)(name:String)(disabled:Bool):Option (Bool×Session):=
 s.ruleSet?.map fun set=>
  match set.ruleNumber? name with
  | some i=>(true,s.modifyRules (·.setDisabled i disabled))
  | none=>(false,s)
def save (s:Session):Option (ResultCode×Session):=
 s.ruleSet?.map fun set=>
  match set.store? with
  | some stored=>(.success,{s with stored:=some stored})
  | none=>(.internalFatalError,s)
def load (s:Session)(kept:Option Nat):Option (ResultCode×Session):=
 s.stored.map fun stored=>
  match stored.load kept with
  | .ok set=>(.success,s.adopt set)
  | .error code=>(code,s)
def loadBytes (b:Bytes):ResultCode:=
 match Arena.load b with
 | .error (.code c)=>c
 | .error .outside=>.internalFatalError
 | .ok _=>.corruptFile
def defineInCompiler (s:Session)(name:String)(value:ExternalValue):Option (ResultCode×Session):=
 s.compiler.map fun c=>
  let (code,c):=c.define name value
  (code,{s with compiler:=some c})
def defineInRules (s:Session)(name:String)(value:ExternalValue):Option (ResultCode×Session):=
 s.ruleSet?.map fun set=>
  let (code,set):=set.define name value
  (code,s.modifyRules fun _=>set)
def scanner? (s:Session)(k:Nat):Option Scanner:=
 (s.scanners.lookup k).map fun x=>{x.scanner with set:=s.sets.getD x.set default}
def withScanner (s:Session)(k:Nat)(f:Scanner→Scanner):Session:=
 { s with scanners:=s.scanners.map fun (n,x)=>
    if n==k then (n,{x with scanner:=f x.scanner}) else (n,x) }
def createScanner (s:Session)(k:Nat):Option Session:=
 match s.current,s.ruleSet? with
 | some n,some set=>
  let rest:=s.scanners.filter (·.1 != k)
  some {s with scanners:=(k,⟨n,Scanner.create set⟩)::rest}
 | _,_=>none
def setFlags (s:Session)(k:Nat)(mask:Int64):Option (Int64×Session):=
 (s.scanners.lookup k).map fun _=>
  let mask:=normalized mask
  (mask,s.withScanner k fun x=>{x with mask:=mask})
def defineInScanner (s:Session)(k:Nat)(name:String)(value:ExternalValue):Option (ResultCode×Session):=
 (s.scanner? k).map fun x=>
  let (code,x):=x.define name value
  (code,s.withScanner k fun _=>x)
structure ScanRuns where
 code:ResultCode
 runs:List (Array Event)
def scanUntilReady (cfg:Configuration)(listener:Option Listener)(start:Scanner→Source→ScanResult):
 Nat→Scanner→Source→ScanRuns×Scanner
 | 0,x,_=>(⟨.blockNotReady,[]⟩,x)
 | n+1,x,source=>
  let r:=start x source
  if r.code==.blockNotReady then
   let again (x:Scanner)(source:Source):=x.scan cfg listener source
   let (rest,x):=scanUntilReady cfg listener again n r.scanner r.source
   (⟨rest.code,r.events::rest.runs⟩,x)
  else (⟨r.code,[r.events]⟩,r.scanner)
def scanRuns (cfg:Configuration)(listener:Option Listener)(whole:Bool)(x:Scanner)
 (source:Source):ScanRuns×Scanner:=
 let start (x:Scanner)(source:Source):=
  if whole then x.scanBytes cfg listener source else x.scan cfg listener source
 scanUntilReady cfg listener start source.patience x source
def scan (s:Session)(k:Nat)(listener:Option Listener)(whole:Bool)
 (source:Source):Option (ScanRuns×Scanner×Session):=
 (s.scanner? k).map fun x=>
  let (runs,x):=scanRuns s.configuration listener whole x source
  (runs,x,s.withScanner k fun _=>x)
end Session
def RuleSet.scan (set:RuleSet)(cfg:Configuration)(mask:Int64)(listener:Option Listener)
 (whole:Bool)(source:Source):ScanResult:=
 let x:={Scanner.create set with mask:=normalized mask}
 if whole then x.scanBytes cfg listener source else x.scan cfg listener source
end PatternScan
