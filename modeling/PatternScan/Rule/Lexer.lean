import PatternScan.Bytes.Basic
import PatternScan.Limits
import PatternScan.Rule.Terminal
/-! The lexer keeps a stack of buffers, because a source can include another one. -/
namespace PatternScan.Rule
open List ByteArray Bytes Limits
inductive Literal where
 | none
 | name (text:String)
 | integer (value:Int64)
 | float (value:Float)
 | reader (kind:NumberReader)
 | text (bytes:Bytes)
 | regexp (bytes:Bytes)(noCase dotAll:Bool)
structure Buffer where
 text:Bytes
 pos:Nat:=0
 line:Nat:=1
inductive LexMode where
 | code | text | regexp | includeName | comment
deriving DecidableEq
inductive LexFault where
 | identifierTooLong | unterminatedText | illegalEscape | emptyRegexp | malformedRegexp | unterminatedRegexp
 | nonAscii
 | numberTooLarge (numeral:String)
 | literalTooLong
inductive Scanned where
 | terminal (t:Terminal)(value:Literal)
 | nothing
 | fault (f:LexFault)
 | included (name:Bytes)
 | bufferEnd
structure Lexer where
 buffers:List Buffer
 mode:LexMode:=.code
 held:Bytes:=empty
namespace Lexer
def line (l:Lexer):Nat:=
 match l.buffers with
 | []=>0
 | b::_=>b.line
def spanEnd (test:UInt8→Bool)(b:Bytes)(i:Nat):Nat:=
 if h:i<b.size then
  if test (b.get i h) then spanEnd test b (i+1) else i
 else i
termination_by b.size-i
def lineFeeds (b:Bytes)(start stop:Nat):Nat:=
 (range (stop-start)).foldl (fun n k=>if b.byteAt (start+k)==10 then n+1 else n) 0
def commentEnd? (b:Bytes)(i:Nat):Option Nat:=
 if i+1<b.size then
  if b.byteAt i==42&&b.byteAt (i+1)==47 then some (i+2) else commentEnd? b (i+1)
 else none
termination_by b.size-i
def isHexStringByte (c:UInt8):Bool:=
 isHexDigit c||c==32||c==45||c==124||c==126||c==63||c==91||c==93
  || c==40||c==41||c==10||c==13||c==9

/-- The index after the hex string whose inside starts at `i`: digits, jumps, alternatives and comments up to a
closing brace. -/
def hexStringEnd? (b:Bytes):Nat→Nat→Option Nat
 | 0,_=>none
 | allowance+1,i=>
  if b.size ≤ i then none
  else
   let c:=b.byteAt i
   if c==125 then some (i+1)
   else if isHexStringByte c then hexStringEnd? b allowance (i+1)
   else if c==47&&b.byteAt (i+1)==42 then
    (commentEnd? b (i+2)).bind (hexStringEnd? b allowance ·)
   else if c==47&&b.byteAt (i+1)==47 then
    let stop:=b.indexOf 10 (i+2)
    if stop<b.size then hexStringEnd? b allowance (stop+1) else none
   else none
def largest:Nat:=0x7fffffffffffffff
def numeral (b:Bytes)(start stop value factor:Nat):Scanned:=
 if largest<value||(factor != 1&&largest/factor<value) then
  .fault (.numberTooLarge (latin1 (b.extract start stop)))
 else .terminal .integer (.integer (Int64.ofNat (value*factor)))
def digitsValue (base:Nat)(b:Bytes)(start stop:Nat):Nat:=
 (range (stop-start)).foldl (fun n k=>n*base+hexValue (b.byteAt (start+k))) 0
def numberAt (b:Bytes)(i:Nat):Scanned×Nat:=
 if b.byteAt i==48&&b.byteAt (i+1)==120&&isHexDigit (b.byteAt (i+2)) then
  let stop:=spanEnd isHexDigit b (i+2)
  (numeral b i stop (digitsValue 16 b (i+2) stop) 1,stop)
 else if b.byteAt i==48&&b.byteAt (i+1)==111&&48≤b.byteAt (i+2)&&b.byteAt (i+2)≤55 then
  let stop:=spanEnd (fun c=>48≤c&&c≤55) b (i+2)
  (numeral b i stop (digitsValue 8 b (i+2) stop) 1,stop)
 else
  let stop:=spanEnd isDigit b i
  let next:=b.byteAt stop
  if next==46&&isDigit (b.byteAt (stop+1)) then
   let last:=spanEnd isDigit b (stop+1)
   let whole:=digitsValue 10 b i stop
   let value:=(range (last-(stop+1))).foldl (fun n k=>n*10+hexValue (b.byteAt (stop+1+k))) whole
   (.terminal .float (.float (Float.ofScientific value true (last-(stop+1)))),last)
  else if (next==75||next==77)&&b.byteAt (stop+1)==66 then
   (numeral b i (stop+2) (digitsValue 10 b i stop) (if next==75 then 1024 else 1048576),stop+2)
  else (numeral b i stop (digitsValue 10 b i stop) 1,stop)
def word (text:String):Scanned:=
 match Terminal.keywords.lookup text with
 | some t=>.terminal t .none
 | none=>
  match NumberReader.byName.lookup text with
  | some kind=>.terminal .integerFunction (.reader kind)
  | none=>
   if 128<text.length then .fault .identifierTooLong
   else .terminal .identifier (.name text)
def stringName (b:Bytes)(i stop:Nat):Literal:=
 .name ("$"++latin1 (b.extract (i+1) stop))
def pairAt? (c d:UInt8):Option Terminal:=
 match Char.ofNat c.toNat,Char.ofNat d.toNat with
 | '.', '.' => some .dotDot
 | '<', '=' => some .lessEqual
 | '>', '=' => some .greaterEqual
 | '=', '=' => some .equal
 | '!', '=' => some .notEqual
 | '<', '<' => some .shiftLeft
 | '>', '>' => some .shiftRight
 | _,_=>none
def codeStep (b:Bytes)(i:Nat):Scanned×Nat×LexMode:=
 let c:=b.byteAt i
 let d:=b.byteAt (i+1)
 let found (t:Terminal) (stop:Nat):Scanned×Nat×LexMode:=(.terminal t .none,stop,.code)
 if c==32||c==9||c==13||c==10 then (.nothing,i+1,.code)
 else if c==47&&d==42 then (.nothing,i+2,.comment)
 else if c==47&&d==47 then (.nothing,b.indexOf 10 i,.code)
 else if c==47 then (.nothing,i+1,.regexp)
 else if c==34 then (.nothing,i+1,.text)
 else if isLetter c||c==95 then
  let stop:=spanEnd isWord b i
  let text:=latin1 (b.extract i stop)
  let quote:=spanEnd (fun c=>c==32||c==9) b stop
  if text == "include" && stop<quote&&b.byteAt quote==34 then
   (.nothing,quote+1,.includeName)
  else (word text,stop,.code)
 else if isDigit c then
  let (s,stop):=numberAt b i
  (s,stop,.code)
 else if c==36 then
  let stop:=spanEnd isWord b (i+1)
  if b.byteAt stop==42 then
   (.terminal .stringWildcard (stringName b i (stop+1)),stop+1,.code)
  else (.terminal .stringName (stringName b i stop),stop,.code)
 else if let some t:=pairAt? c d then found t (i+2)
 else if c==35||c==64||c==33 then
  let stop:=spanEnd isWord b (i+1)
  let t:Terminal:=
   if c==35 then .stringCount else if c==64 then .stringOffset else .stringLength
  (.terminal t (stringName b i stop),stop,.code)
 else if c==123 then
  match hexStringEnd? b (b.size+1) (i+1) with
  | some stop=>
   if stop==i+2 then found .leftBrace (i+1)
   else (.terminal .hexString (.text (untilNul (b.extract i stop))),stop,.code)
  | none=>found .leftBrace (i+1)
 else if 32≤c&&c<127 then found (Terminal.ofByte c) (i+1)
 else (.fault .nonAscii,i+1,.code)
def hold (held piece:Bytes):Except LexFault Bytes:=
 let piece:=untilNul piece
 if literalBuffer-1≤piece.size+held.size then .error .literalTooLong
 else .ok (held++piece)
structure Inside where
 found:Scanned:=.nothing
 stop:Nat
 mode:LexMode
 held:Bytes
def collect (mode:LexMode)(held piece:Bytes)(stop:Nat):Inside:=
 match hold held piece with
 | .ok held=>{stop:=stop,mode:=mode,held:=held}
 | .error f=>{found:=.fault f,stop:=stop,mode:=mode,held:=held}
def collectByte (mode:LexMode)(held:Bytes)(c:UInt8)(stop:Nat):Inside:=
 if literalBuffer-1≤1+held.size then
  {found:=.fault .literalTooLong,stop:=stop,mode:=mode,held:=held}
 else {stop:=stop,mode:=mode,held:=held.push c}
def textStep (b:Bytes)(i:Nat)(held:Bytes):Inside:=
 let c:=b.byteAt i
 if c==34 then
  {found:=.terminal .text (.text held),stop:=i+1,mode:=.code,held:=held}
 else if c==10 then
  {found:=.fault .unterminatedText,stop:=i+1,mode:=.text,held:=held}
 else if c==92 then
  if b.size ≤ i+1 then {stop:=i+1,mode:=.text,held:=held}
  else
   let d:=b.byteAt (i+1)
   match Char.ofNat d.toNat with
   | 't' => collectByte .text held 9 (i+2)
   | 'r' => collectByte .text held 13 (i+2)
   | 'n' => collectByte .text held 10 (i+2)
   | '"' => collectByte .text held 34 (i+2)
   | '\\' => collectByte .text held 92 (i+2)
   | _=>
    if d==120&&isHexDigit (b.byteAt (i+2))&&isHexDigit (b.byteAt (i+3)) then
     collectByte .text held (digitsValue 16 b (i+2) (i+4)).toUInt8 (i+4)
    else {found:=.fault .illegalEscape,stop:=i+2,mode:=.text,held:=held}
 else
  let stop:=spanEnd (fun c=>c != 92&&c != 10&&c != 34) b i
  collect .text held (b.extract i stop) stop
def regexpEnd (b:Bytes)(i:Nat):Nat:=
 let j:=if b.byteAt (i+1)==105 then i+2 else i+1
 if b.byteAt j==115 then j+1 else j

/-- One step inside a regular expression. A dot also matches line feeds when `s` ends it, or when the slash alone ends
it and `s` is the second byte after the slash. -/
def regexpStep (b:Bytes)(i:Nat)(held:Bytes):Inside:=
 let c:=b.byteAt i
 if c==47 then
  let stop:=regexpEnd b i
  if held.isEmpty then
   {found:=.fault .emptyRegexp,stop:=stop,mode:=.regexp,held:=held}
  else
   let noCase:=b.byteAt (i+1)==105
   let dotAll:=
    if stop==i+1 then b.byteAt (i+2)==115 else b.byteAt (stop-1)==115
   { found:=.terminal .regexp (.regexp held noCase dotAll)
     stop:=stop
     mode:=.code
     held:=held }
 else if c==10 then
  {found:=.fault .unterminatedRegexp,stop:=i+1,mode:=.regexp,held:=held}
 else if c==92 then
  let d:=b.byteAt (i+1)
  if b.size ≤ i+1||d==10 then {stop:=i+1,mode:=.regexp,held:=held}
  else if d==47 then collectByte .regexp held 47 (i+2)
  else if literalBuffer-1≤2+held.size then
   {found:=.fault .literalTooLong,stop:=i+2,mode:=.regexp,held:=held}
  else if d==0 then
   {found:=.fault .malformedRegexp,stop:=i+2,mode:=.regexp,held:=held}
  else {stop:=i+2,mode:=.regexp,held:=(held.push c).push d}
 else
  let stop:=spanEnd (fun c=>c != 47&&c != 10&&c != 92) b i
  collect .regexp held (b.extract i stop) stop
def includeStep (b:Bytes)(i:Nat)(held:Bytes):Inside:=
 if b.byteAt i==34 then
  {found:=.included held,stop:=i+1,mode:=.code,held:=held}
 else
  let stop:=spanEnd (fun c=>c != 34) b i
  collect .includeName held (b.extract i stop) stop
def commentStep (b:Bytes)(i:Nat)(held:Bytes):Inside:=
 match commentEnd? b i with
 | some stop=>{stop:=stop,mode:=.code,held:=held}
 | none=>{stop:=b.size,mode:=.comment,held:=held}
def step (l:Lexer):Scanned×Lexer:=
 match l.buffers with
 | []=>(.bufferEnd,l)
 | buffer::rest=>
  let b:=buffer.text
  let i:=buffer.pos
  if b.size ≤ i then (.bufferEnd,{l with buffers:=rest})
  else
   let inside:Inside:=
    match l.mode with
    | .code=>
     let (found,stop,mode):=codeStep b i
     { found:=found,stop:=stop,mode:=mode
       held:=if mode==.code then l.held else empty }
    | .text=>textStep b i l.held
    | .regexp=>regexpStep b i l.held
    | .includeName=>includeStep b i l.held
    | .comment=>commentStep b i l.held
   let buffer:=
    {buffer with pos:=inside.stop,line:=buffer.line+lineFeeds b i inside.stop}
   (inside.found,{buffers:=buffer::rest,mode:=inside.mode,held:=inside.held})
def advance:Nat→Lexer→Scanned×Lexer
 | 0,l=>(.bufferEnd,{l with buffers:=[]})
 | allowance+1,l=>
  match l.step with
  | (.nothing,l)=>advance allowance l
  | found=>found
def allowance (l:Lexer):Nat:=
 match l.buffers with
 | []=>1
 | b::_=>b.text.size+2
def next (l:Lexer):Scanned×Lexer:=advance l.allowance l
def enter (l:Lexer)(text:Bytes):Lexer:=
 {l with buffers:={text:=text}::l.buffers}
end Lexer
end PatternScan.Rule
