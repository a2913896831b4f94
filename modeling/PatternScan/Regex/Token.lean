import PatternScan.Regex.Node
namespace PatternScan.Regex
open Bytes Limits ByteSet
inductive ReadError where
 | intervalTooLarge | badInterval | backreference | illegalEscape | badByteRange | nonAscii
 | unterminatedClass | unexpectedToken | tooDeep
 deriving DecidableEq
def ReadError.message:ReadError→String
 | .intervalTooLarge=>"repeat interval too large"
 | .badInterval=>"bad repeat interval"
 | .backreference=>"backreferences are not allowed"
 | .illegalEscape=>"illegal escape sequence"
 | .badByteRange=>"bad character range"
 | .nonAscii=>"non-ascii character"
 | .unterminatedClass=>"missing terminating ] for character class"
 | .unexpectedToken=>"syntax error"
 | .tooDeep=>"memory exhausted"
inductive Token where
 | done
 | byte (value:UInt8)(verbatim:Bool)
 | interval (lo hi:Nat)
 | cls (k:ByteClass)
 | wordChar | nonWordChar | space | nonSpace | digit | nonDigit | boundary | nonBoundary | bar | star
 | question | plus | caret | dollar | open | close | dot
 deriving DecidableEq

/-- A token with the position after it. `unknownEscape` tells that an escape stands for the byte after the backslash.
-/
structure Lexeme where
 token:Token
 next:Nat
 unknownEscape:Bool
namespace Token
def escapable:ByteSet:=
 (ofText "\\^$.|()[]*+?\"'-\x7b\x7d#:_=/!,@<>~&%").foldl ByteSet.insert empty
structure Escape where
 value:UInt8
 next:Nat
 unknown:Bool

/-- Reads an escape whose backslash stands just before `i`. A zero means the end of the text; neither the end nor the
byte 255 can be escaped. -/
def escape (src:Bytes)(strict:Bool)(i:Nat):Except ReadError Escape:=
 let c:=src.byteAt i
 let ended (c:UInt8):Bool:=c=0||c=255
 if ended c then .error .illegalEscape
 else if c=120 then
  let h:=src.byteAt (i+1)
  let l:=src.byteAt (i+2)
  if isHexDigit h&&isHexDigit l then
   .ok ⟨(hexValue h*16+hexValue l).toUInt8,i+3,false⟩
  else .error .illegalEscape
 else if c=110 then .ok ⟨10,i+1,false⟩
 else if c=116 then .ok ⟨9,i+1,false⟩
 else if c=114 then .ok ⟨13,i+1,false⟩
 else if c=102 then .ok ⟨12,i+1,false⟩
 else if c=97 then .ok ⟨7,i+1,false⟩
 else .ok ⟨c,i+1,strict&&!escapable.contains c⟩
def wordSet:ByteSet:=ofTest isWord
def spaceSet:ByteSet:=ofTest isSpace
def digitSet:ByteSet:=ofTest isDigit

/-- The first byte of a range inside a class and the position of the last one, if a range stands at `i`: a byte or an
escape, a hyphen, and a byte that does not close the class. -/
def rangeAt? (src:Bytes)(i:Nat):Option (Nat×Nat):=
 let closes (c:UInt8):Bool:=c=0||c=93
 let c:=src.byteAt i
 if c=0||c=93 then none
 else if c=92 then
  if src.byteAt (i+1)=120&&isHexDigit (src.byteAt (i+2)) &&
   isHexDigit (src.byteAt (i+3))&&src.byteAt (i+4)=45 &&
   !closes (src.byteAt (i+5)) then
   some (i,i+5)
  else if src.byteAt (i+1)≠0&&src.byteAt (i+1)≠10&&src.byteAt (i+2)=45&&!closes (src.byteAt (i+3)) then
   some (i,i+3)
  else none
 else if src.byteAt (i+1)=45&&!closes (src.byteAt (i+2)) then some (i,i+2)
 else none

/-- The first byte of a range in a class: escapes give no warning there, and a backslash before 255 stands for that
byte. -/
def rangeStart (src:Bytes)(i:Nat):Except ReadError UInt8:=
 if src.byteAt i=92 then
  if src.byteAt (i+1)=255 then .ok 255
  else (escape src false (i+1)).map (·.value)
 else .ok (src.byteAt i)
def members (src:Bytes)(strict negated:Bool):Nat→Nat→Bool→ByteSet→Except ReadError Lexeme
 | 0,_,_,_=>.error .unterminatedClass
 | fuel+1,i,unknown,set=>
  let c:=src.byteAt i
  if c=0 then .error .unterminatedClass
  else if c=93 then .ok ⟨.cls ⟨negated,set⟩,i+1,unknown⟩
  else
   match rangeAt? src i with
   | some (first,last)=>do
    let lo ← rangeStart src first
    let (hi,next) ←
     if src.byteAt last=92 then do
      let e ← escape src strict (last+1)
      pure (e.value,e.next)
     else pure (src.byteAt last,last+1)
    if hi<lo then .error .badByteRange
    else members src strict negated fuel next unknown (set.union (range lo hi))
   | none=>
    if c=92 then
     let d:=src.byteAt (i+1)
     let named:Option ByteSet:=
      if d=119 then some wordSet
      else if d=87 then some wordSet.complement
      else if d=115 then some spaceSet
      else if d=83 then some spaceSet.complement
      else if d=100 then some digitSet
      else if d=68 then some digitSet.complement
      else none
     match named with
     | some more=>members src strict negated fuel (i+2) unknown (set.union more)
     | none=>do
      let e ← escape src strict (i+1)
      members src strict negated fuel e.next (unknown||e.unknown) (set.insert e.value)
    else if c=10 then members src strict negated fuel (i+1) unknown set
    else if 32≤c&&c<127 then
     members src strict negated fuel (i+1) unknown (set.insert c)
    else .error .nonAscii
def skipBlanks (src:Bytes):Nat→Nat→Nat
 | 0,i=>i
 | fuel+1,i=>if src.byteAt i=32 then skipBlanks src fuel (i+1) else i
def interval? (src:Bytes)(i:Nat):Option (Except ReadError Lexeme):=
 let afterLow:=i+src.digitsFrom i
 if i<afterLow&&src.byteAt afterLow=125 then
  let n:=src.decimal32 i
  if n>regexRepeat||n<0 then some (.error .intervalTooLarge)
  else some (.ok ⟨.interval n.toNat n.toNat,afterLow+1,false⟩)
 else
  let comma:=skipBlanks src src.size afterLow
  if src.byteAt comma≠44 then none
  else
   let high:=skipBlanks src src.size (comma+1)
   let afterHigh:=high+src.digitsFrom high
   if src.byteAt afterHigh≠125 then none
   else
    let lo:=src.decimal32 i
    let hi:Int:=if high=afterHigh then regexRepeat else src.decimal32 high
    if hi>regexRepeat then some (.error .intervalTooLarge)
    else if hi<lo||hi<0||lo<0 then some (.error .badInterval)
    else some (.ok ⟨.interval lo.toNat hi.toNat,afterHigh+1,false⟩)
def read (src:Bytes)(strict:Bool)(i:Nat):Except ReadError Lexeme:=
 let plain (t:Token) (n:Nat):Except ReadError Lexeme:=.ok ⟨t,i+n,false⟩
 let c:=src.byteAt i
 if c=0 then plain .done 0
 else if c=123 then (interval? src (i+1)).getD (plain (.byte c true) 1)
 else if c=91 then
  let bracket:=ByteSet.empty.insert 93
  if src.byteAt (i+1)=94 then
   if src.byteAt (i+2)=93 then members src strict true (src.size+1) (i+3) false bracket
   else members src strict true (src.size+1) (i+2) false empty
  else if src.byteAt (i+1)=93 then
   members src strict false (src.size+1) (i+2) false bracket
  else members src strict false (src.size+1) (i+1) false empty
 else if c=92 then
  let d:=src.byteAt (i+1)
  if d=119 then plain .wordChar 2
  else if d=87 then plain .nonWordChar 2
  else if d=115 then plain .space 2
  else if d=83 then plain .nonSpace 2
  else if d=100 then plain .digit 2
  else if d=68 then plain .nonDigit 2
  else if d=98 then plain .boundary 2
  else if d=66 then plain .nonBoundary 2
  else if isDigit d then .error .backreference
  else (escape src strict (i+1)).map fun e=>⟨.byte e.value false,e.next,e.unknown⟩
 else if c=40 then plain .open 1
 else if c=41 then plain .close 1
 else if c=124 then plain .bar 1
 else if c=36 then plain .dollar 1
 else if c=46 then plain .dot 1
 else if c=94 then plain .caret 1
 else if c=43 then plain .plus 1
 else if c=42 then plain .star 1
 else if c=63 then plain .question 1
 else plain (.byte c true) 1
end Token
end PatternScan.Regex
