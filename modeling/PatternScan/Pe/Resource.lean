import PatternScan.Pe.File
namespace PatternScan.Pe
structure Label where
 number:Int:=-1
 text:Option Bytes:=none
def Label.number? (l:Label):Option Int:=
 if l.text.isSome||l.number==-1 then none else some l.number
structure Resource where
 address:Nat
 offset:Option Nat
 length:Nat
 type:Label
 id:Label
 language:Label
structure ResourceRoot where
 offset:Nat
 timestamp:Nat
 version:Version
structure ResourceEntry where
 name:Nat
 target:Nat
 deriving DecidableEq
namespace ResourceEntry
def number (e:ResourceEntry):Int:=Int.bmod e.name 0x100000000
def isDirectory (e:ResourceEntry):Bool:=0x80000000≤e.target
def offset (e:ResourceEntry):Nat:=e.target%0x80000000
end ResourceEntry
structure ResourceVisit where
 path:List ResourceEntry
 entry:ResourceEntry
 deriving DecidableEq
namespace ResourceVisit
def level (v:ResourceVisit):Nat:=v.path.length
def way (v:ResourceVisit):List ResourceEntry:=v.path++[v.entry]
end ResourceVisit
structure ResourceWalk where
 numbers:List Int:=[-1,-1,-1]
 count:Nat:=0
 found:List Resource:=[]
namespace File
def resourceLimit:Nat:=65536
def resourceRoot? (f:File):Option ResourceRoot:=
 (f.directoryOffset? 2).bind fun i=>
  if f.fits i 16 then some ⟨i,f.word (i+4),⟨f.half (i+8),f.half (i+10)⟩⟩ else none
def entryText? (f:File)(root:Nat)(e:ResourceEntry):Option Bytes:=
 let i:=root+e.name%0x80000000
 let n:=f.half i
 if e.name<0x80000000||!f.fits i 2||1000<n||!f.fits i (2+2*n) then none
 else some (f.data.slice (i+2) (2*n))
def entriesAt (f:File)(i:Nat):List ResourceEntry:=
 (List.range (f.half (i+12)+f.half (i+14))).map fun k=>⟨f.word (i+16+8*k),f.word (i+20+8*k)⟩

/-- The entries of a directory up to the first one that leads nowhere. A directory with characteristics, too many
entries, or entries outside the file has none. -/
def resourceEntries (f:File)(i:Nat):List ResourceEntry:=
 let named:=f.half (i+12)
 let numbered:=f.half (i+14)
 if f.word i != 0||32768<named||32768<numbered||!f.fits (i+16) (8*(named+numbered)) then []
 else (f.entriesAt i).takeWhile (·.target != 0)
def visits (f:File)(root:Nat):Nat→Nat→List ResourceEntry→List ResourceVisit
 | 0,dir,path=>(f.resourceEntries dir).map (⟨path,·⟩)
 | depth+1,dir,path=>
  (f.resourceEntries dir).flatMap fun e=>
   let target:=root+e.offset
   let below:=if e.isDirectory&&target != dir&&f.fits target 16 then
     f.visits root depth target (path++[e])
    else []
   ⟨path,e⟩::below
def resourceAt (f:File)(root:Nat)(v:ResourceVisit)(numbers:List Int):Resource:=
 let i:=root+v.entry.offset
 let label (k:Nat):Label:=⟨numbers.getD k (-1),v.way[k]?.bind (f.entryText? root)⟩
 { address:=f.word i
   offset:=f.offset? (f.word i)
   length:=f.word (i+4)
   type:=label 0
   id:=label 1
   language:=label 2 }
def isResource (f:File)(root:Nat)(v:ResourceVisit):Bool:=
 let i:=root+v.entry.offset
 let length:=f.word (i+4)
 (v.level==2||!v.entry.isDirectory)&&f.fits i 16&&length != 0&&length≤0x3FFFFFFF
def collect (f:File)(root:Nat)(w:ResourceWalk)(v:ResourceVisit):ResourceWalk:=
 let numbers:=w.numbers.set v.level v.entry.number
 if f.isResource root v&&w.count<resourceLimit then
  {numbers,count:=w.count+1,found:=f.resourceAt root v numbers::w.found}
 else {w with numbers}
def resources (f:File):List Resource:=
 match f.resourceRoot? with
 | some r=>((f.visits r.offset 2 r.offset []).foldl (f.collect r.offset) {}).found.reverse
 | none=>[]
end File
end PatternScan.Pe
