import PatternScan.Module.Call
import PatternScan.Number.Fixed
namespace PatternScan.Module.Text
open Bytes
def declarations:Object:=
 .record [("to_int",overloaded .noInteger [("s",.text .toInteger),("si",.text .toIntegerInBase)]),
   ("length",overloaded .noInteger [("s",.text .length)])]
def digit? (c:UInt8):Option Nat:=
 if isDigit c then some (c.toNat-48)
 else if isLetter c then some ((lower c).toNat-87)
 else none
def digits? (base:Nat)(cs:List UInt8)(value:Nat):Option Nat:=
 match cs with
 | []=>some value
 | c::rest=>
  match digit? c with
  | some d=>if d<base then digits? base rest (value*base+d) else none
  | none=>none
def number? (base:Nat)(b:Bytes):Option Int64:=
 let cs:=b.toList.dropWhile isSpace
 let (negative,cs):=
  match cs with
  | 45::rest=>(true,rest)
  | 43::rest=>(false,rest)
  | cs=>(false,cs)
 let hexadecimal:=
  match cs with
  | 48::x::d::_=>
   lower x==120&&(base==0||base==16)&&isHexDigit d
  | _=>false
 let (base,cs):=
  if hexadecimal then (16,cs.drop 2)
  else if base==0 then (if cs.head?==some 48 then 8 else 10,cs)
  else (base,cs)
 if cs.isEmpty then none
 else
  (digits? base cs 0).bind fun n=>
   let value:Int:=if negative then -n else n
   if value < -0x8000000000000000||0x8000000000000000≤value then none else some (Int64.ofInt value)
def call (f:TextFunction)(c:Call):Object:=
 match f with
 | .toInteger=>.integer ((number? 0 (c.name 1)).getD undefinedInteger)
 | .toIntegerInBase=>
  let base:=c.integer 2
  if base==0||(2≤base&&base≤36) then
   .integer ((number? base.toInt.toNat (c.name 1)).getD undefinedInteger)
  else .noInteger
 | .length=>.ofNat (c.text 1).size
end PatternScan.Module.Text
namespace PatternScan.Module.Console
open Bytes Number
def declarations:Object:=
 .record [("log",overloaded .noInteger
   [("s",.console .logText),("ss",.console .logTextWith),("i",.console .logInteger),
    ("si",.console .logIntegerWith),("f",.console .logFloat),("sf",.console .logFloatWith)]),
   ("hex",overloaded .noInteger [("i",.console .hexInteger),("si",.console .hexIntegerWith)])]
def printable (b:Bytes):Bytes:=
 b.foldl (fun out c=>
  if 32≤c&&c<127 then out.push c
  else out++ofText ("\\x"++hexDigits 2 c.toNat)) ByteArray.empty

/-- What is not a number is the result of an operation without one, and those have a sign. -/
def floatText (x:Float):Bytes:=ofText (if x.isNaN then "-nan" else fixed 6 x)
def message (f:ConsoleFunction)(c:Call):Bytes:=
 let decimal (v:Int64):Bytes:=ofText (toString v.toInt)
 let hex (v:Int64):Bytes:=ofText ("0x"++hexDigits 1 v.toUInt64.toNat)
 match f with
 | .logText=>printable (c.text 1)
 | .logTextWith=>c.name 1++printable (c.text 2)
 | .logInteger=>decimal (c.integer 1)
 | .logIntegerWith=>c.name 1++decimal (c.integer 2)
 | .logFloat=>floatText (c.float 1)
 | .logFloatWith=>c.name 1++floatText (c.float 2)
 | .hexInteger=>hex (c.integer 1)
 | .hexIntegerWith=>c.name 1++hex (c.integer 2)
end PatternScan.Module.Console
