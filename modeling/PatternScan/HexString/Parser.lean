import PatternScan.Regex.Node
namespace PatternScan.HexString
open Bytes Limits
open PatternScan.Regex (Node Pattern Traits)
inductive ReadError where
 | unevenDigits | loneNegation | badJumpByte | badByte | jumpLength | longJumpInAlternative | negativeJump
 | jumpRange | unboundedJumpInAlternative | unexpectedToken | tooDeep
 deriving DecidableEq
def ReadError.message:ReadError→String
 | .unevenDigits=>"uneven number of digits in hex string"
 | .loneNegation=>"invalid not operator (~) in hex string"
 | .badJumpByte=>"invalid character in hex string jump"
 | .badByte=>"invalid character in hex string"
 | .jumpLength=>"invalid jump length"
 | .longJumpInAlternative=>"jumps over 200 not allowed inside alternation (|)"
 | .negativeJump=>"invalid negative jump length"
 | .jumpRange=>"invalid jump range"
 | .unboundedJumpInAlternative=>"unbounded jumps not allowed inside alternation (|)"
 | .unexpectedToken=>"syntax error"
 | .tooDeep=>"memory exhausted"
inductive Token where
 | done
 | byte (n:Node)
 | number (n:Int)
 | bracket | endBracket | hyphen | brace | endBrace | open | close | bar
def unbounded:Nat:=0x7fffffff
def skipComment (src:Bytes):Nat→Nat→Nat
 | 0,i=>i
 | fuel+1,i=>
  if src.byteAt i=0 then i
  else if src.byteAt i=42&&src.byteAt (i+1)=47 then i+2
  else skipComment src fuel (i+1)
def skipLine (src:Bytes):Nat→Nat→Nat
 | 0,i=>i
 | fuel+1,i=>if src.byteAt i=0||src.byteAt i=10 then i else skipLine src fuel (i+1)
def twoDigits? (h l:UInt8):Option (UInt8×UInt8):=
 let digit? (c:UInt8):Option (UInt8×UInt8):=
  if isHexDigit c then some ((hexValue c).toUInt8,15)
  else if c=63 then some (0,0) else none
 match digit? h,digit? l with
 | some (hv,hm),some (lv,lm)=>some (hv*16+lv,hm*16+lm)
 | _,_=>none
def byteNode (value mask:UInt8):Node:=
 if mask=255 then .literal value false
 else if mask=0 then .any
 else .masked value mask
def notByteNode (value mask:UInt8):Node:=
 if mask=255 then .notLiteral value else .maskedNot value mask
def readToken (src:Bytes)(inJump:Bool):Nat→Nat→Except ReadError (Token×Nat)
 | 0,i=>.ok (.done,i)
 | fuel+1,i=>
  let c:=src.byteAt i
  if c=0 then .ok (.done,i)
  else if c=32||c=9||c=13||c=10 then readToken src inJump fuel (i+1)
  else if inJump then
   if c=45 then .ok (.hyphen,i+1)
   else if c=93 then .ok (.endBracket,i+1)
   else if isDigit c then .ok (.number (src.decimal32 i),i+src.digitsFrom i)
   else .error .badJumpByte
  else if c=91 then .ok (.bracket,i+1)
  else if c=123 then .ok (.brace,i+1)
  else if c=125 then .ok (.endBrace,i+1)
  else if c=40 then .ok (.open,i+1)
  else if c=41 then .ok (.close,i+1)
  else if c=124 then .ok (.bar,i+1)
  else if c=47&&src.byteAt (i+1)=42 then
   readToken src inJump fuel (skipComment src src.size (i+2))
  else if c=47&&src.byteAt (i+1)=47 then
   readToken src inJump fuel (skipLine src src.size (i+2))
  else if c=126 then
   match twoDigits? (src.byteAt (i+1)) (src.byteAt (i+2)) with
   | some (v,m)=>if m=0 then .error .loneNegation else .ok (.byte (notByteNode v m),i+3)
   | none=>.error .loneNegation
  else
   match twoDigits? c (src.byteAt (i+1)) with
   | some (v,m)=>.ok (.byte (byteNode v m),i+2)
   | none=>if isHexDigit c then .error .unevenDigits else .error .badByte
structure Reader where
 src:Bytes
 token:Token
 pos:Nat
 linear:Bool
namespace Reader
def advanceIn (r:Reader)(inJump:Bool):Except ReadError Reader:=do
 let (t,next) ← readToken r.src inJump (r.src.size+1) r.pos
 pure {r with token:=t,pos:=next}
def advance (r:Reader):Except ReadError Reader:=r.advanceIn false
def exactJump (inAlternative:Bool)(n:Int):Except ReadError Node:=
 if n≤0 then .error .jumpLength
 else if inAlternative&&n>chainingGap then .error .longJumpInAlternative
 else if n=1 then .ok (.masked 0 0)
 else .ok (.gap n.toNat n.toNat false)
def boundedJump (inAlternative:Bool)(lo hi:Int):Except ReadError Node:=
 if inAlternative&&(lo>chainingGap||hi>chainingGap) then
  .error .longJumpInAlternative
 else if lo<0||hi<0 then .error .negativeJump
 else if lo>hi then .error .jumpRange
 else .ok (.gap lo.toNat hi.toNat false)
def openJump (inAlternative:Bool)(lo:Int):Except ReadError Node:=
 if inAlternative then .error .unboundedJumpInAlternative
 else if lo<0 then .error .negativeJump
 else .ok (.gap lo.toNat unbounded false)
def jump (r:Reader)(inAlternative:Bool):Except ReadError (Node×Reader):=do
 let r ← r.advanceIn true
 let finish (n:Except ReadError Node)(r:Reader):Except ReadError (Node×Reader):=do
  let n ← n
  pure (n,← r.advance)
 match r.token with
 | .hyphen=>
  let r ← r.advanceIn true
  match r.token with
  | .endBracket=>finish (openJump inAlternative 0) r
  | _=>.error .unexpectedToken
 | .number lo=>
  let r ← r.advanceIn true
  match r.token with
  | .endBracket=>finish (exactJump inAlternative lo) r
  | .hyphen=>
   let r ← r.advanceIn true
   match r.token with
   | .endBracket=>finish (openJump inAlternative lo) r
   | .number hi=>
    let r ← r.advanceIn true
    match r.token with
    | .endBracket=>finish (boundedJump inAlternative lo hi) r
    | _=>.error .unexpectedToken
   | _=>.error .unexpectedToken
  | _=>.error .unexpectedToken
 | _=>.error .unexpectedToken
mutual
/-- Reads bytes, alternatives and jumps. A jump stands between two other items; `jumped` tells that
the last item was one, `done` holds the items read, the last one first. -/
def items (fuel depth:Nat)(inAlternative jumped:Bool)(r:Reader)(done:List Node):Except ReadError (Node×Reader):=
 match fuel with
 | 0=>.error .tooDeep
 | fuel+1=>
  match r.token with
  | .byte n=>do items fuel depth inAlternative false (← r.advance) (n::done)
  | .open=>do
   if depth+4≥parserDepth then .error .tooDeep
   else
    let (first,r) ← items fuel (depth+4) true false (← r.advance) []
    let (n,r) ← alternatives fuel (depth+4) first r
    match r.token with
    | .close=>items fuel depth inAlternative false (← r.advance) (n::done)
    | _=>.error .unexpectedToken
  | .bracket=>
   if done.isEmpty then .error .unexpectedToken
   else do
    let (n,r) ← r.jump inAlternative
    items fuel depth inAlternative true r (n::done)
  | _=>
   if done.isEmpty||jumped then .error .unexpectedToken
   else
    match done with
    | [n]=>.ok (n,r)
    | done=>.ok (.cat done.reverse,r)
def alternatives (fuel depth:Nat)(left:Node)(r:Reader):Except ReadError (Node×Reader):=
 match fuel with
 | 0=>.error .tooDeep
 | fuel+1=>
  match r.token with
  | .bar=>do
   let (right,r) ← items fuel (depth+2) true false (← r.advance) []
   alternatives fuel depth (.alt left right) {r with linear:=false}
  | _=>.ok (left,r)
end
end Reader
def read (text:Bytes):Except ReadError Pattern:=do
 let src:=text.untilNul
 let r ← Reader.advance ⟨src,.done,0,true⟩
 match r.token with
 | .brace=>
  let (root,r) ← (← r.advance).items (4*src.size+8) 2 false false []
  match r.token with
  | .endBrace=>
   let r ← r.advance
   match r.token with
   | .done=>pure ⟨root,{Traits.none with linear:=r.linear,dotAll:=true}⟩
   | _=>.error .unexpectedToken
  | _=>.error .unexpectedToken
 | _=>.error .unexpectedToken
end PatternScan.HexString
