import PatternScan.Regex.Token
namespace PatternScan.Regex
structure Reader where
 src:Bytes
 strict:Bool
 token:Token
 pos:Nat
 unknownEscape:Bool
 traits:Traits
namespace Reader
def advance (r:Reader):Except ReadError Reader:=do
 let l ← Token.read r.src r.strict r.pos
 pure { r with
  token:=l.token
  pos:=l.next
  unknownEscape:=r.unknownEscape||l.unknownEscape }
def start (src:Bytes)(strict:Bool):Except ReadError Reader:=
 advance ⟨src,strict,.done,0,false,Traits.none⟩
def notLinear (r:Reader):Reader:={r with traits:={r.traits with linear:=false}}
def noteGreed (r:Reader)(greedy:Bool):Reader:=
 if greedy then {r with traits:={r.traits with greedy:=true}}
 else {r with traits:={r.traits with ungreedy:=true}}
def bounded (r:Reader)(n:Node)(lo hi:Nat)(greedy:Bool):Node×Reader:=
 match n with
 | .any=>(.gap lo hi greedy,r.noteGreed greedy)
 | n=>(.range lo hi greedy n,(r.noteGreed greedy).notLinear)
def greed (r:Reader):Except ReadError (Bool×Reader):=
 match r.token with
 | .question=>do pure (false,← r.advance)
 | _=>pure (true,r)
def repetition (r:Reader)(n:Node):Except ReadError (Node×Reader):=
 match r.token with
 | .star=>do
  let (greedy,r) ← (← r.advance).greed
  pure (.star greedy n,(r.noteGreed greedy).notLinear)
 | .plus=>do
  let (greedy,r) ← (← r.advance).greed
  pure (.plus greedy n,(r.noteGreed greedy).notLinear)
 | .question=>do
  let (greedy,r) ← (← r.advance).greed
  pure (r.bounded n 0 1 greedy)
 | .interval lo hi=>do
  let (greedy,r) ← (← r.advance).greed
  pure (r.bounded n lo hi greedy)
 | _=>pure (n,r)
def simple? : Token→Option (Node×Bool)
 | .byte c v=>some (.literal c v,true)
 | .dot=>some (.any,true)
 | .wordChar=>some (.wordChar,true)
 | .nonWordChar=>some (.nonWordChar,true)
 | .space=>some (.space,true)
 | .nonSpace=>some (.nonSpace,true)
 | .digit=>some (.digit,true)
 | .nonDigit=>some (.nonDigit,true)
 | .cls k=>some (.cls k,true)
 | .boundary=>some (.boundary,false)
 | .nonBoundary=>some (.nonBoundary,false)
 | .caret=>some (.start,false)
 | .dollar=>some (.stop,false)
 | _=>none
def starts (t:Token):Bool:=t=.open||(simple? t).isSome
mutual
def alternative (fuel depth:Nat)(r:Reader):Except ReadError (Node×Reader):=
 match fuel with
 | 0=>.error .tooDeep
 | fuel+1=>do
  let (first,r) ← concatenation fuel depth r []
  alternatives fuel depth first r
def alternatives (fuel depth:Nat)(left:Node)(r:Reader):Except ReadError (Node×Reader):=
 match fuel with
 | 0=>.error .tooDeep
 | fuel+1=>
  match r.token with
  | .bar=>do
   let r:=(← r.advance).notLinear
   if starts r.token then
    let (right,r) ← concatenation fuel (depth+2) r []
    alternatives fuel depth (.alt left right) r
   else alternatives fuel depth (.alt left .empty) r
  | _=>.ok (left,r)
def concatenation (fuel depth:Nat)(r:Reader)(done:List Node):Except ReadError (Node×Reader):=
 match fuel with
 | 0=>.error .tooDeep
 | fuel+1=>
  if starts r.token then do
   let (n,r) ← item fuel (if done.isEmpty then depth else depth+1) r
   concatenation fuel depth r (n::done)
  else if done.isEmpty then .error .unexpectedToken
  else .ok (.cat done.reverse,r)
def item (fuel depth:Nat)(r:Reader):Except ReadError (Node×Reader):=
 match fuel with
 | 0=>.error .tooDeep
 | fuel+1=>
  if depth+1≥Limits.parserDepth then .error .tooDeep
  else
   match simple? r.token with
   | some (n,repeats)=>do
    let r ← r.advance
    if repeats then r.repetition n else pure (n,r)
   | none=>
    match r.token with
    | .open=>do
     let (n,r) ← alternative fuel (depth+1) (← r.advance)
     match r.token with
     | .close=>do (← r.advance).repetition n
     | _=>.error .unexpectedToken
    | _=>.error .unexpectedToken
end
end Reader
structure Reading where
 pattern:Pattern
 unknownEscape:Bool
def read (text:Bytes)(strict:Bool):Except ReadError Reading:=do
 let src:=text.untilNul
 let r ← Reader.start src strict
 let (root,r) ← r.alternative (4*src.size+8) 1
 if r.token=.done then pure ⟨⟨root,r.traits⟩,r.unknownEscape⟩
 else .error .unexpectedToken
end PatternScan.Regex
