import PatternScan.Pe.File
namespace PatternScan.Pe
structure Export where
 ordinal:Nat
 address:Nat
 offset:Option Nat
 forward:Option Bytes
 name:Option Bytes
structure ExportTable where
 timestamp:Option Nat:=none
 libraryName:Option Bytes:=none
 functions:List Export:=[]
namespace File
def exportLimit:Nat:=16384
def exportNameLimit:Nat:=512
def exportText? (f:File)(address limit:Nat):Option Bytes:=
 match f.offset? address with
 | some 0=>none
 | some i=>some (f.textAt i limit)
 | none=>none
structure ExportPlaces where
 functions:Nat
 names:Option Nat
 numbers:Nat
 functionCount:Nat
 nameCount:Nat
def exportPlaces? (f:File)(i:Nat):Option ExportPlaces:=
 let count:=min (f.word (i+20)) exportLimit
 let named:=f.word (i+24)
 let room (o:Option Nat):Nat:=o.elim (f.size+1) (f.size-·)
 let names:=f.offset? (f.word (i+32))
 if room (f.offset? (f.word (i+12)))<4*count then none
 else if named != 0&&(names.isNone||room names<4*named) then none
 else
  match f.offset? (f.word (i+36)),f.offset? (f.word (i+28)) with
  | some numbers,some functions=>
   if f.fits numbers (2*count)&&f.fits functions (4*count) then
    some
     { functions:=functions
       names:=if named==0 then none else names
       numbers:=numbers
       functionCount:=count
       nameCount:=min named count }
   else none
  | _,_=>none
def exportNames (f:File)(p:ExportPlaces):Array (Option Nat):=
 (List.range p.nameCount).foldl (fun a j=>a.modify (f.half (p.numbers+2*j)) (·.or (some j)))
  (Array.replicate p.functionCount none)

/-- The exported function with a number. An address inside the directory leads to what the function is forwarded to.
-/
def exportAt (f:File)(i:Nat)(p:ExportPlaces)(names:Array (Option Nat))(k:Nat):Export:=
 let address:=f.word (p.functions+4*k)
 let offset:=f.offset? address
 let forwarded:=offset.any fun o=>i<o&&o < i+(f.directory 0).size
 { ordinal:=(f.word (i+16)+k)%0x100000000
   address:=address
   offset:=if forwarded then none else offset
   forward:=if forwarded then offset.map (f.textAt · exportNameLimit) else none
   name:=p.names.bind fun start=>
    names[k]?.join.bind fun j=>f.exportText? (f.word (start+4*j)) exportNameLimit }
def exports (f:File):ExportTable:=
 match f.directoryOffset? 0 with
 | none=>{}
 | some i=>
  if f.fits i 40 then
   let functions:=match f.exportPlaces? i with
    | some p=>(List.range p.functionCount).map (f.exportAt i p (f.exportNames p))
    | none=>[]
   { timestamp:=some (f.word (i+4))
     libraryName:=f.exportText? (f.word (i+12)) f.size
     functions:=functions }
  else {}
end File
def ExportTable.index? (t:ExportTable)(test:Export→Bool):Option Nat:=
 t.functions.findIdx? test

/-- The number of the function with an ordinal; ordinals beyond the number of functions are not
looked for. -/
def ExportTable.indexOfOrdinal? (t:ExportTable)(ordinal:Int):Option Nat:=
 if ordinal==0||t.functions.length<ordinal then none
 else t.index? fun e=>e.ordinal==ordinal
end PatternScan.Pe
