import PatternScan.Regex.Parser
import PatternScan.Rule.StringFlags
/-! The base64 form of a longer text contains that of a part of it, up to the symbols which also depend
on the bytes around the part. -/
namespace PatternScan.Base64
def standard:Bytes:=
 Bytes.ofText "ABCDEFGHIJKLMNOPQRSTUVWXYZabcdefghijklmnopqrstuvwxyz0123456789+/"
def encode (alphabet:Bytes):List UInt8→List UInt8
 | []=>[]
 | [a]=>
  [symbol (a >>> 2),symbol ((a &&& 3) <<< 4),61,61]
 | [a,b]=>
  [symbol (a >>> 2),symbol (((a &&& 3) <<< 4) ||| (b >>> 4)),symbol ((b &&& 15) <<< 2),61]
 | a::b::c::rest=>
  symbol (a >>> 2)::symbol (((a &&& 3) <<< 4) ||| (b >>> 4)) ::
   symbol (((b &&& 15) <<< 2) ||| (c >>> 6))::symbol (c &&& 63)::encode alphabet rest
where
 symbol (n:UInt8):UInt8:=alphabet.byteAt n.toNat
def form (alphabet:Bytes)(text:List UInt8)(shift:Nat):List UInt8:=
 let n:=shift+text.length
 let pad:=if n%3=0 then 0 else 3-n%3
 let symbols:=encode alphabet (List.replicate shift 65++text)
 let leading:=if shift=0 then 0 else shift+1
 let trailing:=if pad=0 then 0 else pad+1
 (symbols.drop leading).take (symbols.length-leading-trailing)
def widenForm (l:List UInt8):List UInt8:=l.flatMap fun c=>[c,0]
def forms (alphabet:Bytes)(text:List UInt8)(wide:Bool):List (List UInt8):=
 ([0,1,2].filter fun shift=>!(shift=1&&text.length=1)).map fun shift=>
  let f:=form alphabet text shift
  if wide then widenForm f else f
def allForms (flags:StringFlags)(alphabet text:Bytes):List (List UInt8):=
 let both (t:Bytes):List (List UInt8):=
  (if flags.base64 then forms alphabet t.data.toList false else []) ++
   (if flags.base64Wide then forms alphabet t.data.toList true else [])
 (if flags.wide then both text.widen else [])++(if flags.ascii then both text else []) ++
  (if !flags.wide&&!flags.ascii then both text else [])
def isSpecial (c:UInt8):Bool:=
 [92,94,36,124,40,41,91,93,42,63,123,44,46,43,125].contains c
def escaped (c:UInt8):List UInt8:=
 if c=0 then [92,120,48,48] else if isSpecial c then [92,c] else [c]
def written (form:List UInt8):List UInt8:=form.flatMap escaped
def alternatives? : List (List UInt8)→Option Bytes
 | []=>none
 | f::fs=>some (.ofList (40::(written f++(fs.flatMap fun g=>124::written g)++[41])))
def pattern? (flags:StringFlags)(alphabet text:Bytes):Option Regex.Pattern:=do
 let source ← alternatives? (allForms flags alphabet text)
 let reading ← (Regex.read source false).toOption
 pure reading.pattern
end PatternScan.Base64
