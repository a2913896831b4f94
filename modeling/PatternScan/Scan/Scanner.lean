import PatternScan.Condition.Machine
import PatternScan.Executable.EntryPoint
import PatternScan.Module.Registry
import PatternScan.Scan.Search
/-! A scanner searches the blocks of a source one after the other, evaluates the conditions and reports
every rule. -/
namespace PatternScan.Scan
open Executable Regex Condition Module Source Findings
structure Configuration where
 stackSize:Nat:=16384
 stringsPerRule:Nat:=10000
 matchData:Nat:=512
 memoryChunk:Nat:=1073741824
namespace Configuration
def set32 (c:Configuration)(number value:Nat):ResultCode×Configuration:=
 let value:=value%0x100000000
 match number with
 | 0=>(.success,{c with stackSize:=value})
 | 1=>(.success,{c with stringsPerRule:=value})
 | 2=>(.success,{c with matchData:=value})
 | _=>(.invalidArgument,c)
def set64 (c:Configuration)(number value:Nat):ResultCode×Configuration:=
 match number with
 | 3=>(.success,{c with memoryChunk:=value%0x10000000000000000})
 | _=>(.invalidArgument,c)
def get32? (c:Configuration)(number:Nat):Option Nat:=
 match number with
 | 0=>some c.stackSize
 | 1=>some c.stringsPerRule
 | 2=>some c.matchData
 | _=>none
def get64? (c:Configuration)(number:Nat):Option Nat:=
 match number with
 | 3=>some c.memoryChunk
 | _=>none
end Configuration
open Condition (Cell)
structure ScanFlags where
 fast:Bool:=false
 memory:Bool:=false
 reportMatching:Bool:=true
 reportNotMatching:Bool:=true
namespace ScanFlags
def normalized (n:Int64):Int64:=if n &&& 24==0 then n ||| 24 else n
def ofMask (n:Int64):ScanFlags:=
 let n:=normalized n
 { fast:=n &&& 1 != 0
   memory:=n &&& 2 != 0
   reportMatching:=n &&& 8 != 0
   reportNotMatching:=n &&& 16 != 0 }
end ScanFlags
structure Scanner where
 set:RuleSet
 mask:Int64:=24
 objects:List (String×Object)
 entryPoint:Int64:=undefinedInteger
 findings:Findings
 culprit:Option Nat:=none
structure ScanState where
 objects:List (String×Object)
 details:Details:={}
 source:Source
 events:Array Event
namespace ScanState
def load (listener:Listener)(memory:Bool)(name:String)(s:ScanState):ResultCode×ScanState:=
 if (s.objects.lookup name).isSome then (.success,s)
 else
  let s:={s with events:=s.events.push (.importing name)}
  if listener.respond (.importing name)==.error then (.callbackError,s)
  else
   match declarations? name with
   | none=>(.unknownModule,s)
   | some _=>
    let (blocks,source):=s.source.visit
    let (object,details):=
     Module.load name ⟨blocks,memory,listener.moduleData name⟩ s.details
    let event:Event:=.imported name object
    let s:ScanState:=
     { objects:=(name,object)::s.objects
       details:=details
       source:=source
       events:=s.events.push event }
    (if listener.respond event==.error then .callbackError else .success,s)
def call (regexCode:Code)(f:Builtin)(arguments:List Cell)(s:ScanState):
 Except ResultCode Object×ScanState:=
 let (blocks,source):=s.source.visit
 let c:Call:=⟨arguments,blocks,regexCode⟩
 let events:=
  match f with
  | .console f=>s.events.push (.console (Console.message f c))
  | _=>s.events
 let (result,details):=Module.call f s.details c
 (.ok result,{s with details:=details,source:=source,events:=events})
def read (kind:Rule.NumberReader)(offset:Int64)(s:ScanState):Int64×ScanState:=
 let (blocks,source):=s.source.visit
 (readNumber kind offset.toUInt64 blocks,{s with source:=source})
def world (listener:Listener)(memory:Bool)(regexCode:Code):World ScanState where
 object?:=fun name s=>s.objects.lookup name
 load:=load listener memory
 call:=call regexCode
 read:=read
def unload (objects:List (String×Object)):List (String×Object):=
 objects.filter fun (name,_)=>!Module.names.contains name
end ScanState
structure ScanResult where
 code:ResultCode
 events:Array Event
 scanner:Scanner
 source:Source
def visitBlock (c:SearchSetting)(memory:Bool)(b:SourceBlock)(p:Progress)(entry:Int64):
 ResultCode×Progress×Int64:=
 match b.data with
 | none=>(.success,p,entry)
 | some data=>
  let entry:=
   if entry != undefinedInteger then entry
   else if memory then entryAddress data b.base
   else entryOffset data
  let x:=p.search c ⟨b.base.toInt64,data⟩
  (x.1,x.2,entry)
namespace Scanner
def create (set:RuleSet):Scanner:=
 { set:=set
   objects:=set.externals.toList.reverse.map fun e=>(e.name,e.value.object)
   findings:=empty set }
def flags (s:Scanner):ScanFlags:=ScanFlags.ofMask s.mask
def define (s:Scanner)(name:String)(value:ExternalValue):ResultCode×Scanner:=
 match s.objects.lookup name with
 | none=>(.invalidArgument,s)
 | some old=>
  let fits:=
   match old,value.object with
   | .integer _,.integer _ | .float _,.float _ | .text _,.text _=>true
   | _,_=>false
  if fits then
   (.success,{ s with objects:=s.objects.map fun (n,o)=>
    if n==name then (n,value.object) else (n,o) })
  else (.invalidExternalVariableType,s)
def searchBlocks (s:Scanner)(c:SearchSetting):
 Nat→Option SourceBlock→Source→Progress→Int64→ResultCode×Source×Progress×Int64
 | 0,_,source,p,entry=>(.success,source,p,entry)
 | _,none,source,p,entry=>(.success,source,p,entry)
 | n+1,some b,source,p,entry=>
  match visitBlock c s.flags.memory b p entry with
  | (.success,p,entry)=>
   let (next,source):=source.next
   searchBlocks s c n next source p entry
  | (code,p,entry)=>(code,source,p,entry)
def ruleMatches (s:Scanner)(f:Findings)(r:Rule):RuleMatches:=
 r.strings.filterMap fun i=>
  let l:=f.of (s.set.string i).index
  if l.isEmpty then none else some (i,l)
def report (s:Scanner)(listener:Listener)(f:Findings)(matched unsatisfied:Array Bool):
 Nat→List Rule→Array Event→ResultCode×Array Event
 | _,[],events=>(.success,events.push .finished)
 | i,r::rest,events=>
  let hit:=matched.getD i false&&!unsatisfied.getD r.space false
  let wanted:=if hit then s.flags.reportMatching else s.flags.reportNotMatching
  if wanted&&!r.hidden then
   let found:=s.ruleMatches f r
   let event:Event:=if hit then .matching i found else .notMatching i found
   match listener.respond event with
   | .abort=>(.success,events.push event)
   | .error=>(.callbackError,events.push event)
   | .proceed=>report s listener f matched unsatisfied (i+1) rest (events.push event)
  else report s listener f matched unsatisfied (i+1) rest events
def environment (s:Scanner)(cfg:Configuration)(listener:Listener)(fileSize:Option Int64)
 (f:Findings)(entry:Int64):Environment ScanState:=
 { set:=s.set
   findings:=f
   world:=ScanState.world listener s.flags.memory s.set.regexCode
   fileSize:=fileSize.getD undefinedInteger
   entryPoint:=entry
   capacity:=cfg.stackSize }
def conclude (s:Scanner)(cfg:Configuration)(listener:Listener)(source:Source)
 (p:Progress)(entry:Int64):ScanResult:=
 let (code,state):=
  evaluate (s.environment cfg listener source.fileSize p.findings entry)
   {objects:=s.objects,source:=source,events:=p.events}
 let s:={s with objects:=ScanState.unload state.world.objects}
 if code==.success then
  let (code,events):=
   s.report listener p.findings state.matched state.unsatisfied 0 s.set.rules.toList state.world.events
  ⟨code,events,s,state.world.source⟩
 else ⟨code,state.world.events,s,state.world.source⟩
def searchSetting (s:Scanner)(cfg:Configuration)(listener:Listener):SearchSetting:=
 { set:=s.set
   listener:=listener
   fast:=s.flags.fast
   room:=Int.bmod cfg.matchData 0x100000000 }

/-- The source and the progress that a scan starts with. It goes on with a source that was not ready. -/
def outset (s:Scanner)(source:Source):Source×Progress:=
 if source.code==notReady then (source,⟨s.findings,#[],s.culprit⟩)
 else ({source with position:=0},⟨s.findings.start s.set,#[],s.culprit⟩)
def finish (s:Scanner)(cfg:Configuration)(listener:Listener)(code:ResultCode)
 (source:Source)(p:Progress)(entry:Int64):ScanResult:=
 let s:={s with findings:=empty s.set,entryPoint:=entry,culprit:=p.culprit}
 if code != .success then ⟨code,p.events,s,source⟩
 else if source.code != 0 then
  let s:=if source.code==notReady then {s with findings:=p.findings} else s
  ⟨ResultCode.ofNumber source.code,p.events,s,source⟩
 else s.conclude cfg listener source p entry
def scan (s:Scanner)(cfg:Configuration)(listener:Option Listener)(source:Source):
 ScanResult:=
 match listener with
 | none=>⟨.callbackRequired,#[],{s with findings:=empty s.set},source⟩
 | some listener=>
  let (source,p):=s.outset source
  let (first,source):=source.next
  let (code,source,p,entry):=
   s.searchBlocks (s.searchSetting cfg listener) (source.blocks.size+1) first source p s.entryPoint
  s.finish cfg listener code source p entry
def scanBytes (s:Scanner)(cfg:Configuration)(listener:Option Listener)(source:Source):
 ScanResult:=
 let size:=source.blocks.foldl (fun n b=>n+b.size) 0
 match listener,s.set.table.lists.getD 0 none with
 | some l,some _=>
  if Limits.largeInput<size then
   let event:Event:=.tooSlow (s.set.table.pool.getD 0 default).string
   if l.respond event==.proceed then
    let r:=s.scan cfg listener source
    {r with events:=#[event]++r.events}
   else ⟨.tooSlowScanning,#[event],s,source⟩
  else s.scan cfg listener source
 | _,_=>s.scan cfg listener source
end Scanner
end PatternScan.Scan
