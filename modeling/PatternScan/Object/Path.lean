import PatternScan.Number.Fixed
import PatternScan.Object.Basic
import PatternScan.ResultCode
/-! A path names a member of a structure, then an item of it, then a member of that, as in
`sections[2].name` or `version["author"]`. -/
namespace PatternScan.Object
open Bytes
inductive Step where
 | member (name:String)
 | item (index:Option Int)(key:Option Bytes)
def nameLimit:Nat:=255
def partEnd (stops:UInt8→Bool)(b:Bytes)(i:Nat):Nat→Nat
 | 0=>i
 | room+1=>
  if b.size ≤ i||b.byteAt i==0||stops (b.byteAt i) then i
  else partEnd stops b (i+1) room
def readPath (b:Bytes)(index:Option Int)(key:Option Bytes):Nat→Nat→List Step→Option (List Step)
 | 0,_,_=>none
 | allowance+1,i,done=>
  let stop:=partEnd (fun c=>c==46||c==91) b i nameLimit
  let done:=.member (latin1 (b.extract i stop))::done
  let after (i:Nat)(index:Option Int)(key:Option Bytes)(done:List Step):=
   if b.byteAt i==0 then some done.reverse else readPath b index key allowance (i+1) done
  if b.byteAt stop==91 then
   let c:=b.byteAt (stop+1)
   if isDigit c then
    let n:=digitsFrom b (stop+1)
    let index:=some (signed 32 (min (decimal b (stop+1) n) 0x7fffffffffffffff))
    after (stop+1+n+1) index key (.item index key::done)
   else if c==34 then
    let close:=partEnd (fun c=>c==34) b (stop+2) nameLimit
    let key:=some (b.extract (stop+2) close)
    after (close+2) index key (.item index key::done)
   else none
  else after stop index key done
def path? (b:Bytes):Option (List Step):=
 readPath b none none (b.size+1) 0 []
structure Reached where
 object:Object
 found:Option Object
def reach (create:Bool)(change:Object→Object):List Step→Object→Reached
 | [],o=>⟨change o,some o⟩
 | .member name::rest,o=>
  match o with
  | .struct members=>
   match members.lookup name with
   | none=>⟨o,none⟩
   | some m=>
    let r:=reach create change rest m
    ⟨.struct (replaceMember name r.object members),r.found⟩
  | o=>⟨o,none⟩
 | .item index key::rest,o=>
  match o with
  | .array p items=>
   match index with
   | none=>⟨o,none⟩
   | some i=>
    if i<0 then ⟨o,none⟩
    else
     match (items[i.toNat]?).join with
     | some m=>
      let r:=reach create change rest m
      ⟨.array p (setItem items i.toNat r.object),r.found⟩
     | none=>
      if create then
       let r:=reach create change rest p.copy
       ⟨.array p (setItem items i.toNat r.object),r.found⟩
      else ⟨o,none⟩
  | .dictionary p items=>
   match key with
   | none=>⟨o,none⟩
   | some k=>
    match items.findIdx? fun (name,_)=>name==k with
    | some n=>
     match items[n]? with
     | some (name,m)=>
      let r:=reach create change rest m
      ⟨.dictionary p (items.setIfInBounds n (name,r.object)),r.found⟩
     | none=>⟨o,none⟩
    | none=>
     if create then
      let r:=reach create change rest p.copy
      ⟨.dictionary p (items.push (k,r.object)),r.found⟩
     else ⟨o,none⟩
  | o=>reach create change rest o
def get? (o:Object)(path:Bytes):Option Object:=
 (path? path).bind fun steps=>(reach false id steps o).found
def create (o:Object)(path:Bytes):Reached:=
 match path? path with
 | some steps=>reach true id steps o
 | none=>⟨o,none⟩
def set (o:Object)(path:Bytes)(value:Object):ResultCode×Object:=
 match path? path with
 | none=>(.insufficientMemory,o)
 | some steps=>
  let r:=reach true (fun _=>value) steps o
  (if r.found.isSome then .success else .insufficientMemory,r.object)
def tabs (indent:Nat):String:="".pushn '\t' (min indent 31)
def escaped (b:Bytes):String:=
 b.foldl (fun s c=>
  if 32≤c&&c<127 then s.push (Char.ofNat c.toNat)
  else s++"\\x"++Number.hexDigits 2 c.toNat) ""
def integerText (v:Int64):String:=
 if v==undefinedInteger then " = YR_UNDEFINED" else " = "++toString v.toInt
def isUndefinedBits (x:Float):Bool:=x.toBits.toInt64==undefinedInteger
mutual
def body (indent:Nat):Object→String
 | .integer v=>integerText v
 | .float x=>if isUndefinedBits x then " = YR_UNDEFINED" else " = "++Number.fixed 6 x
 | .text none=>" = YR_UNDEFINED"
 | .text (some b)=>" = \""++escaped b++"\""
 | .struct members=>membersText indent members
 | .array _ items=>itemsText indent 0 items.toList
 | .dictionary _ items=>entriesText indent items.toList
 | .function _ _=>""
def membersText (indent:Nat):List (String×Object)→String
 | []=>""
 | (name,o)::rest=>
  (match o with
   | .function _ _=>""
   | o=>"\n"++tabs (min indent 31+1)++name++body (min indent 31+1) o)
   ++ membersText indent rest
def itemsText (indent i:Nat):List (Option Object)→String
 | []=>""
 | none::rest=>itemsText indent (i+1) rest
 | some o::rest=>
  "\n"++tabs indent++"\t["++toString i++"]"++body (min indent 31+1) o++itemsText indent (i+1) rest
def entriesText (indent:Nat):List (Bytes×Object)→String
 | []=>""
 | (key,o)::rest=>
  "\n"++tabs indent++"\t"++Bytes.latin1 (Bytes.untilNul key)++body (min indent 31+1) o
   ++ entriesText indent rest
end
def print (name:String)(indent:Nat)(o:Object):String:=
 match o with
 | .function _ _=>""
 | o=>tabs indent++name++body indent o
end PatternScan.Object
