import PatternScan.Regex.Node
namespace PatternScan.Regex.Node
open Bytes
def newLine (indent:Nat):String:="\n"++"".pushn ' ' (max indent 1)
def upperHex (c:UInt8):String:=
 (hex (ofList [c])).map Char.toUpper
def byteText (c:UInt8):String:=latin1 (ofList [c])
def classText (k:ByteClass):String:=
 (256).fold (fun i _ s=>if k.accepts i.toUInt8 false then s++upperHex i.toUInt8++"," else s) ""
mutual
def text (indent:Nat)(n:Node):String:=
 (if indent>0 then newLine indent else "") ++
  match n with
  | .alt l r=>
   "Alt("++l.text (indent+4)++","++r.text (indent+4)++newLine indent++")"
  | .cat parts=>"Cat("++textList (indent+4) parts++newLine indent++")"
  | .star _ e=>"Star("++e.text (indent+4)++")"
  | .plus _ e=>"Plus("++e.text (indent+4)++")"
  | .literal c _=>"Lit("++byteText c++")"
  | .notLiteral c=>"NotLit("++byteText c++")"
  | .masked v m=>"MaskedLit("++upperHex v++","++upperHex m++")"
  | .maskedNot _ _=>"???"
  | .wordChar=>"WordChar"
  | .nonWordChar=>"NonWordChar"
  | .space=>"Space"
  | .nonSpace=>"NonSpace"
  | .digit=>"Digit"
  | .nonDigit=>"NonDigit"
  | .any=>"Any"
  | .range lo hi _ e=>
   "Range("++toString lo++"-"++toString hi++", "++e.text (indent+4)++newLine indent++")"
  | .cls k=>"Class("++classText k++")"
  | .empty=>"Empty"
  | .start=>"AnchorStart"
  | .stop=>"AnchorEnd"
  | .boundary=>"WordBoundary"
  | .nonBoundary=>"NonWordBoundary"
  | .gap _ _ _=>"RangeAny"
def textList (indent:Nat):List Node→String
 | []=>""
 | n::ns=>n.text indent++","++textList indent ns
end
end PatternScan.Regex.Node
