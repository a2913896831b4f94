import PatternScan.Base64
import PatternScan.HexString.Parser
import PatternScan.Rule.Compiler
namespace PatternScan.Rule
open Bytes Base64 Limits Action Regex
structure Modifier where
 flags:StringFlags:=StringFlags.none
 keys:UInt8×UInt8:=(0,0)
 alphabet:Option Bytes:=none
namespace Modifier
def overlap (a b:StringFlags):Bool:=a.toNat &&& b.toNat != 0
def union (a b:StringFlags):StringFlags:=StringFlags.ofNat (a.toNat ||| b.toNat)
end Modifier
def modifierConflict? (f:StringFlags):Option String:=
 let encoded:=f.base64||f.base64Wide
 let name:=if f.base64 then "base64" else "base64wide"
 if f.xor&&f.noCase then some "invalid modifier combination: xor nocase"
 else if f.noCase&&encoded then some ("invalid modifier combination: "++name++" nocase")
 else if f.fullWord&&encoded then some ("invalid modifier combination: "++name++" fullword")
 else if f.xor&&encoded then some ("invalid modifier combination: "++name++" xor")
 else none
structure PatternParts where
 code:Code
 atoms:AtomList

/-- Emits the code of a pattern in both directions and chooses its atoms. Without atoms it is tried at every place. -/
def patternParts (quality:QualityRule)(flags:StringFlags)(p:Pattern)
 (code:Code):Except ResultCode PatternParts:=do
 let start:=code.size
 let (code,entries) ← p.emit false code p.noEntries
 let (code,entries) ← p.emit true code entries
 let atoms:=AtomList.ofPattern quality flags p.root entries
 let everywhere:AtomItem:=⟨[],0,⟨some start,none⟩⟩
 let items:=if atoms.items.isEmpty then [everywhere] else atoms.items
 pure ⟨code,{atoms with items:=items}⟩
def prepared (quality:QualityRule)(m:Modifier)(text:Option Bytes)(p:Option Pattern)
 (code:Code):Except ResultCode (StringFlags×Bytes×Code×AtomList):=
 match (match p with
  | some p=>p.root.literal?
  | none=>text),p with
 | none,some p=>do
  let flags:={m.flags with fixedOffset:=false}
  let parts ← patternParts quality flags p code
  pure (flags,ByteArray.empty,parts.code,parts.atoms)
 | literal,_=>
  let b:=literal.getD ByteArray.empty
  let length:=if m.flags.wide then 2*b.size else b.size
  let flags:={ m.flags with
   literal:=true
   fitsInAtom:=m.flags.fitsInAtom||length≤atomLength }
  pure (flags,b,code,AtomList.ofText quality flags m.keys b)
def Compiler.plant (c:Compiler)(name:String)(flags:StringFlags)(shown:Bytes)(code:Code)
 (atoms:AtomList):Compiler:=
 { c with
   strings:=c.strings.push {name:=name,index:=c.strings.size,rule:=c.rule.getD 0,flags:=flags,text:=shown}
   regexCode:=code
   trie:=c.trie.add c.strings.size atoms.items }.modifyRule fun r=>
    {r with atoms:=r.atoms+atoms.items.length}
def addString (name:String)(m:Modifier)(text:Option Bytes)(p:Option Pattern):Action Int:=do
 let c ← get
 let (flags,shown,code,atoms) ← Action.ofExcept (prepared c.setting.quality m text p c.regexCode)
 set (c.plant name flags shown code atoms)
 pure atoms.quality
def Compiler.join (c:Compiler)(gap:Option (Int×Int))(last:Bool):Compiler:=
 match gap with
 | none=>c
 | some (lo,hi)=>
  let index:=c.strings.size-1
  let c:=c.modifyString index fun s=>
   { s with
     link:=some ⟨index-1,lo,hi⟩
     flags:={ s.flags with
      fixedOffset:=false
      chainPart:=s.flags.chainPart||last
      chainTail:=s.flags.chainTail||last } }
  c.modifyString (index-1) fun s=>{s with flags:={s.flags with chainPart:=true}}
def addParts (name:String)(m:Modifier):Nat→Pattern→Option (Int×Int)→Int→Action Int
 | 0,_,_,worst=>pure worst
 | allowance+1,p,gap,worst=>do
  let (part,rest):=p.split
  let quality ← addString name m none (some part)
  modify (·.join gap rest.isNone)
  let worst:=min worst quality
  match rest with
  | none=>pure worst
  | some (lo,hi,remainder)=>
   addParts name m allowance remainder (some ((lo:Int),(hi:Int))) worst
def readPattern (name:String)(m:Modifier)(text:Bytes):Action Pattern:=do
 let c ← get
 let complain (kind message:String):String:=
  cut 512 ("invalid "++kind++" \""++name++"\": "++message)
 if m.flags.hexadecimal then
  match HexString.read text with
  | .ok p=>pure p
  | .error e=>failWith .invalidHexString (complain "hex string" e.message)
 else if m.flags.regexp then
  match Regex.read text c.setting.strict with
  | .ok r=>
   if r.unknownEscape then warn "unknown escape sequence"
   pure r.pattern
  | .error e=>failWith .invalidRegularExpression (complain "regular expression" e.message)
 else
  match pattern? m.flags (m.alphabet.getD standard) text with
  | some p=>pure p
  | none=>fail .insufficientMemory
def Modifier.declared (m:Modifier)(name:String):Modifier:=
 { m with flags:={ m.flags with
   dotAll:=m.flags.dotAll||m.flags.hexadecimal
   ascii:=m.flags.ascii||(!m.flags.wide&&!(m.flags.base64||m.flags.base64Wide))
   singleMatch:=true
   fixedOffset:=true
   anonymous:=name == "$" } }
def Modifier.forPattern (m:Modifier)(p:Pattern):Modifier:=
 { m with flags:={ m.flags with
   linear:=m.flags.linear||p.traits.linear
   greedy:=m.flags.greedy||p.traits.greedy } }
def declareString (name:String)(m:Modifier)(text:Bytes):Action Unit:=do
 let c ← get
 if c.stringNames.contains name then failWith .duplicatedStringIdentifier name
 if text.isEmpty then failWith .emptyString name
 let patterned:=m.flags.hexadecimal||m.flags.regexp||(m.flags.base64||m.flags.base64Wide)
 let m:=m.declared name
 if name != "$" then modify fun c=>{c with stringNames:=name::c.stringNames}
 match modifierConflict? m.flags with
 | some conflict=>failWith .invalidModifier conflict
 | none=>pure ()
 let quality ←
  if patterned then do
   let p ← readPattern name m text
   if p.traits.greedy&&p.traits.ungreedy then
    failWith .invalidRegularExpression "greedy and ungreedy quantifiers can't be mixed in a regular expression"
   if p.root.unboundedDot then
    warn (name++" contains .*, .+ or .\x7bx,\x7d consider using .\x7b,N\x7d, "
     ++ ".\x7b1,N\x7d or \x7bx,N\x7d with a reasonable value for N")
   addParts name (m.forPattern p) (text.size+1) p none atomQuality
  else addString name m (some text) none
 if quality<(← get).setting.qualityWarning then
  warn ("string \""++name++"\" may slow down scanning")
def startsWith (text start:String):Bool:=start.toList.isPrefixOf text.toList
def openRule (hidden everywhere:Bool)(name:String):Action Unit:=do
 let c ← get
 if (c.ruleNumber? name).isSome||c.globals.contains name then
  failWith .duplicatedIdentifier name
 if c.wildcards.any fun (space,start)=>space==c.spaceName&&startsWith name start then
  failWith .identifierMatchesWildcard name
 let index:=c.rules.size
 set { c with
  rules:=c.rules.push
   { name:=name,space:=c.space,hidden:=hidden,everywhere:=everywhere
     firstString:=c.strings.size }
  rule:=some index
  stringNames:=[]
  ruleNumbers:=c.ruleNumbers.insert (c.spaceName,name) index }
def closeStrings:Action Unit:=
 modify fun c=>
  let c:=c.modifyString (c.strings.size-1) fun s=>
   {s with flags:={s.flags with lastInRule:=true}}
  c.modifyRule fun r=>{r with stringCount:=c.strings.size-r.firstString}
def checkString (ruleName:String)(count:Nat)(i:Nat):Action Nat:=do
 let c ← get
 let s:=c.string i
 let unused:=!s.flags.referenced&&s.link.isNone
 if unused&&(s.flags.anonymous||(s.name.toList.getD 1 ' ') != '_') then
  failWith .unreferencedString s.name
 if unused then
  set (c.modifyString i fun s=>{s with flags:={s.flags with fixedOffset:=false}})
 if c.setting.stringLimit<count+1 then failWith .tooManyStrings ruleName
 pure (count+1)
def closeRule (name:String)(tags:List String)(metas:List Meta)(required:Nat)
 (condition:Condition.Expression):Action Unit:=do
 modify (·.modifyRule fun r=>{r with tags:=tags,metas:=metas,required:=required})
 let c ← get
 match c.rule.bind (c.rules[·]?) with
 | none=>pure ()
 | some r=>
  if atomsPerRule<r.atoms then warn "rule is slowing down scanning"
  let _ ← r.strings.foldlM (checkString name) 0
  modify fun c=>
   { c with
     sections:=c.sections.push (.rule (c.rule.getD 0) condition)
     rule:=none }
def importModule (name:Bytes):Action Unit:=do
 let c ← get
 let shown:=latin1 (untilNul name)
 if name.isEmpty||(untilNul name).size != name.size then
  failWith .invalidModuleName shown
 let key:=(c.spaceName,shown)
 if c.modules.contains key then pure ()
 else
  match c.setting.modules shown with
  | none=>
   modify fun c=>{c with modules:=c.modules.insert key (.struct [])}
   failWith .unknownModule shown
  | some declared=>
   modify fun c=>
    { c with
      modules:=c.modules.insert key declared
      sections:=c.sections.push (.importing shown) }
end PatternScan.Rule
