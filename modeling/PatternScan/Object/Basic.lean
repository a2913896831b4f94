import PatternScan.Bytes.Basic
namespace PatternScan
inductive ConsoleFunction where
 | logText | logTextWith | logInteger | logIntegerWith | logFloat | logFloatWith | hexInteger | hexIntegerWith
 deriving DecidableEq
inductive DexFunction where
 | hasMethod | hasMethodOfClass | hasMethodMatching | hasMethodOfClassMatching | hasClass | hasClassMatching
 deriving DecidableEq
inductive ElfFunction where
 | similarityHash | importHash
 deriving DecidableEq
inductive DigestKind where
 | md5 | sha1 | sha256 | checksum32 | crc32
 deriving DecidableEq
inductive HashFunction where
 | ofRange (kind:DigestKind)
 | ofText (kind:DigestKind)
 deriving DecidableEq
inductive MachoFunction where
 | fileIndex | fileIndexOfSubtype | entryPoint | entryPointOfSubtype
 deriving DecidableEq
inductive MathFunction where
 | inRange | deviationOfRange | deviationOfText | meanOfRange | meanOfText | correlationOfRange
 | correlationOfText | piOfRange | piOfText | entropyOfRange | entropyOfText | min | max | toNumber | abs
 | countInRange | count | percentageInRange | percentage | modeOfRange | mode | toText | toTextInBase
 deriving DecidableEq
inductive PeFunction where
 | checksum | richVersion | richVersionOfTool | richTool | richToolOfVersion | importHash | sectionNamed
 | sectionAt | exportsName | exportsMatching | exportsOrdinal | exportIndexOfName | exportIndexOfOrdinal
 | exportIndexMatching | imports | importsOrdinal | importsLibrary | importsMatching | importsOfKind
 | importsOrdinalOfKind | importsLibraryOfKind | importsMatchingOfKind | importAddress
 | importAddressOfOrdinal | delayedImportAddress | delayedImportAddressOfOrdinal | locale | language
 | isLibrary | is32Bit | is64Bit | validOn | fileOffset
 deriving DecidableEq
inductive TextFunction where
 | toInteger | toIntegerInBase | length
 deriving DecidableEq
inductive TestFunction where
 | matching | sumOfTwo | sumOfThree | floatSumOfTwo | floatSumOfThree | length | empty | foobar
 deriving DecidableEq
inductive TimeFunction where
 | now
 deriving DecidableEq
inductive Builtin where
 | console (f:ConsoleFunction)
 | dex (f:DexFunction)
 | elf (f:ElfFunction)
 | hash (f:HashFunction)
 | macho (f:MachoFunction)
 | math (f:MathFunction)
 | pe (f:PeFunction)
 | text (f:TextFunction)
 | tests (f:TestFunction)
 | time (f:TimeFunction)
 deriving DecidableEq
def undefinedInteger:Int64:=Int64.ofInt (0xFFFABADAFABADAFF-0x10000000000000000)
def undefinedFloat:Float:=Float.ofBits 0x7FF8000000000000
structure Overload where
 arguments:String
 builtin:Builtin
 deriving DecidableEq
inductive Object where
 | integer (value:Int64)
 | float (value:Float)
 | text (value:Option Bytes)
 | struct (members:List (String×Object))
 | array (pattern:Object)(items:Array (Option Object))
 | dictionary (pattern:Object)(items:Array (Bytes×Object))
 | function (overloads:List Overload)(result:Object)
deriving Inhabited
def under (start:String)(constants:List (String×Nat)):List (String×Nat):=
 constants.map fun (name,value)=>(start++name,value)
namespace Object
def noInteger:Object:=.integer undefinedInteger
def noFloat:Object:=.float undefinedFloat
def noText:Object:=.text none
def record (members:List (String×Object)):Object:=.struct members.reverse
def arrayOf (pattern:Object):Object:=.array pattern #[]
def dictionaryOf (pattern:Object):Object:=.dictionary pattern #[]
def ofNat (n:Nat):Object:=.integer (Int64.ofNat n)
def ofInt (n:Int):Object:=.integer (Int64.ofInt n)
def ofBytes (b:Bytes):Object:=.text (some b)
def isUndefined:Object→Bool
 | .integer v=>v==undefinedInteger
 | .float x=>x.isNaN
 | .text v=>v.isNone
 | _=>false
mutual
def copy:Object→Object
 | .integer v=>.integer v
 | .float x=>.float x
 | .text v=>.text v
 | .struct members=>.struct (copyMembers members [])
 | .array pattern _=>.array (copy pattern) #[]
 | .dictionary pattern _=>.dictionary (copy pattern) #[]
 | .function overloads result=>.function overloads (copy result)
def copyMembers:List (String×Object)→List (String×Object)→List (String×Object)
 | [],done=>done
 | (name,o)::rest,done=>copyMembers rest ((name,copy o)::done)
end
def member? (o:Object)(name:String):Option Object:=
 match o with
 | .struct members=>members.lookup name
 | _=>none
def replaceMember (name:String)(value:Object):List (String×Object)→List (String×Object)
 | []=>[]
 | (n,o)::rest=>
  if n==name then (n,value)::rest else (n,o)::replaceMember name value rest
def setMember (o:Object)(name:String)(value:Object):Object:=
 match o with
 | .struct members=>.struct (replaceMember name value members)
 | o=>o
def setMembers (o:Object)(values:List (String×Object)):Object:=
 values.foldl (fun o (name,value)=>o.setMember name value) o
def modifyMember (o:Object)(name:String)(f:Object→Object):Object:=
 match o.member? name with
 | some m=>o.setMember name (f m)
 | none=>o
def pattern (o:Object):Object:=
 match o with
 | .array p _=>p
 | .dictionary p _=>p
 | o=>o
def items (o:Object):Array (Option Object):=
 match o with
 | .array _ items=>items
 | _=>#[]
def item? (o:Object)(index:Int):Option Object:=
 if index<0 then none else (o.items[index.toNat]?).join
def setItem (items:Array (Option Object))(index:Nat)(value:Object):Array (Option Object):=
 if index < items.size then items.setIfInBounds index (some value)
 else (items++Array.replicate (index-items.size) none).push (some value)
def withMade (o:Object)(makers:List (Object→Object)):Object:=
 match o with
 | .array p _=>
  let fresh:=p.copy
  .array p (makers.map fun f=>some (f fresh)).toArray
 | o=>o

/-- The array with items made from new copies of the pattern, some of them missing. It ends with its last item. -/
def withSome (o:Object)(makers:List (Option (Object→Object))):Object:=
 match o with
 | .array p _=>
  let fresh:=p.copy
  let items:=makers.map fun f=>f.map (· fresh)
  .array p (items.reverse.dropWhile Option.isNone).reverse.toArray
 | o=>o
def lookup? (o:Object)(key:Bytes):Option Object:=
 match o with
 | .dictionary _ items=>
  items.foldl (fun found (k,v)=>if Bytes.untilNul k==key then some v else found) none
 | _=>none
def text? : Object→Option Bytes
 | .text v=>v
 | _=>none
end Object
end PatternScan
