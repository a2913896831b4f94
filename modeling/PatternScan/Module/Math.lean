import PatternScan.Module.Call
import PatternScan.Number.Fixed
namespace PatternScan.Module.Math
open Float (ofNat)
open Bytes
def declarations:Object:=
 .record [("MEAN_BYTES",.noFloat),("in_range",overloaded .noInteger [("fff",.math .inRange)]),
   ("deviation",overloaded .noFloat [("iif",.math .deviationOfRange),("sf",.math .deviationOfText)]),
   ("mean",overloaded .noFloat [("ii",.math .meanOfRange),("s",.math .meanOfText)]),
   ("serial_correlation",overloaded .noFloat [("ii",.math .correlationOfRange),("s",.math .correlationOfText)]),
   ("monte_carlo_pi",overloaded .noFloat [("ii",.math .piOfRange),("s",.math .piOfText)]),
   ("entropy",overloaded .noFloat [("ii",.math .entropyOfRange),("s",.math .entropyOfText)]),
   ("min",overloaded .noInteger [("ii",.math .min)]),("max",overloaded .noInteger [("ii",.math .max)]),
   ("to_number",overloaded .noInteger [("b",.math .toNumber)]),("abs",overloaded .noInteger [("i",.math .abs)]),
   ("count",overloaded .noInteger [("iii",.math .countInRange),("i",.math .count)]),
   ("percentage",overloaded .noFloat [("iii",.math .percentageInRange),("i",.math .percentage)]),
   ("mode",overloaded .noInteger [("ii",.math .modeOfRange),("",.math .mode)]),
   ("to_string",overloaded .noText [("i",.math .toText),("ii",.math .toTextInBase)])]
def load:Object:=declarations.setMember "MEAN_BYTES" (.float 127.5)
def bump (counts:Array Nat)(c:UInt8):Array Nat:=
 counts.modify c.toNat fun n=>(n+1)%0x100000000
def distribution (pieces:List Bytes):Array Nat:=
 pieces.foldl (fun counts b=>b.foldl bump counts) (Array.replicate 256 0)
def total (counts:Array Nat):Nat:=counts.foldl (·+·) 0
def entropy (counts:Array Nat)(n:Nat):Float:=
 counts.foldl (fun sum k=>
  if k==0 then sum
  else
   let x:=ofNat k/ofNat n
   sum-x*x.log2) 0
def unsigned (c:UInt8):Float:=ofNat c.toNat
def signed (c:UInt8):Float:=Float.ofInt c.toInt8.toInt

/-! Totals are taken of floats, or of any other kind of numbers. -/
section
variable {α:Type}[Add α][Mul α][OfNat α 0]
def weighted (number:Nat→α)(f:α→α)(counts:Array Nat):α:=
 (counts.foldl (fun (sum,i) k=>(sum+f (number i)*number k,i+1)) ((0:α),0)).1
def sum (read:UInt8→α)(b:Bytes):α:=b.foldl (fun sum c=>sum+read c) 0
structure Sums (α:Type) where
 last:α
 products:α
 values:α
 squares:α
namespace Sums
def none:Sums α:=⟨0,0,0,0⟩
def add (s:Sums α)(x:α):Sums α:=
 { last:=x
   products:=s.products+s.last*x
   values:=s.values+x
   squares:=s.squares+x*x }
def addBytes (read:UInt8→α)(s:Sums α)(b:Bytes):Sums α:=b.foldl (fun s c=>s.add (read c)) s
def cycle (s:Sums α)(first:α):α:=s.products+s.last*first
end Sums
def firstOf (read:UInt8→α)(first:α)(b:Bytes):α:=
 if b.isEmpty then first else read (b.byteAt 0)
end
def correlation (s:Sums Float)(first:Float)(n:Nat):Float:=
 let square:=s.values*s.values
 let divisor:=ofNat n*s.squares-square
 if divisor==0 then -100000 else (ofNat n*s.cycle first-square)/divisor
structure Points where
 group:List Nat:=[]
 drawn:Nat:=0
 inside:Nat:=0
def coordinate (a b c:Nat):Nat:=(a*256+b)*256+c
def inCircle (x y:Nat):Bool:=x*x+y*y≤16777215*16777215
namespace Points
def add (p:Points)(x:Nat):Points:=
 match p.group with
 | [e,d,c,b,a]=>
  { drawn:=p.drawn+1
    inside:=if inCircle (coordinate a b c) (coordinate d e x) then p.inside+1 else p.inside }
 | group=>{p with group:=x::group}
def addBytes (read:UInt8→Nat)(p:Points)(b:Bytes):Points:=
 b.foldl (fun p c=>p.add (read c)) {p with group:=[]}
def error (p:Points):Float:=
 let pi:Float:=3.141592653589793
 if p.drawn==0 then undefinedFloat
 else ((4*(ofNat p.inside/ofNat p.drawn)-pi)/pi).abs
end Points
def widened (c:UInt8):Nat:=(Int32.ofInt c.toInt8.toInt).toUInt32.toNat
def mode (counts:Array Nat):Nat:=
 (List.range 256).foldl (fun best i=>if counts.getD best 0<counts.getD i 0 then i else best) 0
def globalDistribution? (blocks:List Scan.SourceBlock):Option (Array Nat):=
 let rec collect (expected:UInt64):List Scan.SourceBlock→Option (List Bytes)
  | []=>some []
  | b::rest=>
   if expected != b.base then none
   else
    match b.data with
    | none=>none
    | some data=>(collect b.stop rest).map (data::·)
 (collect 0 blocks).map distribution
def share (counts:Array Nat)(byte:Nat):Float:=
 ((counts.getD byte 0).toFloat32/(total counts).toFloat32).toFloat
def call (f:MathFunction)(c:Call):Object:=
 let counts? (n:Nat):Option (Array Nat):=(c.range n).map distribution
 let ofCounts (d:Option (Array Nat)) (g:Array Nat→Float):Object:=
  .float (d.elim undefinedFloat g)
 /- The value of a byte among the counts, when the byte exists. -/
 let ofByte (d:Option (Array Nat)):Option (Array Nat×Nat):=
  let byte:=c.integer 1
  if byte<0||255<byte then none else d.map fun counts=>(counts,byte.toInt.toNat)
 let text:=c.text 1
 let size:=ofNat text.size
 match f with
 | .inRange=>truth (c.float 2≤c.float 1&&c.float 1≤c.float 3)
 | .deviationOfRange=>
  ofCounts (counts? 1) fun d=>
   weighted ofNat (fun x=>(x-c.float 3).abs) d/ofNat (total d)
 | .deviationOfText=>
  .float (text.foldl (fun sum x=>sum+(signed x-c.float 2).abs) 0/size)
 | .meanOfRange=>ofCounts (counts? 1) fun d=>weighted ofNat id d/ofNat (total d)
 | .meanOfText=>.float (sum signed text/size)
 | .correlationOfRange=>
  (c.range 1).elim .noFloat fun pieces=>
   .float (correlation (pieces.foldl (Sums.addBytes unsigned) .none)
    (pieces.foldl (firstOf unsigned) 0) (concat pieces).size)
 | .correlationOfText=>
  .float (correlation (Sums.none.addBytes signed text) (firstOf signed 0 text) text.size)
 | .piOfRange=>
  (c.range 1).elim .noFloat fun pieces=>
   .float (pieces.foldl (Points.addBytes UInt8.toNat) {}).error
 | .piOfText=>.float (Points.addBytes widened {} text).error
 | .entropyOfRange=>ofCounts (counts? 1) fun d=>entropy d (total d)
 | .entropyOfText=>.float (entropy (distribution [text]) text.size)
 | .min=>.integer (if (c.integer 1).toUInt64<(c.integer 2).toUInt64 then c.integer 1 else c.integer 2)
 | .max=>.integer (if (c.integer 1).toUInt64>(c.integer 2).toUInt64 then c.integer 1 else c.integer 2)
 | .toNumber=>truth (c.integer 1 != 0)
 | .abs=>.integer (if c.integer 1<0 then -c.integer 1 else c.integer 1)
 | .countInRange=>
  (ofByte (counts? 2)).elim .noInteger fun (d,byte)=>.ofNat (d.getD byte 0)
 | .count=>
  (ofByte (globalDistribution? c.blocks)).elim .noInteger fun (d,byte)=>.ofNat (d.getD byte 0)
 | .percentageInRange=>(ofByte (counts? 2)).elim .noFloat fun (d,byte)=>.float (share d byte)
 | .percentage=>
  (ofByte (globalDistribution? c.blocks)).elim .noFloat fun (d,byte)=>.float (share d byte)
 | .modeOfRange=>(counts? 1).elim .noInteger fun d=>.ofNat (mode d)
 | .mode=>(globalDistribution? c.blocks).elim .noInteger fun d=>.ofNat (mode d)
 | .toText=>.ofBytes (ofText (toString (c.integer 1).toInt))
 | .toTextInBase=>
  let n:=(c.integer 1).toUInt64.toNat
  if c.integer 2==10 then .ofBytes (ofText (toString (c.integer 1).toInt))
  else if c.integer 2==8 then .ofBytes (ofText (String.ofList (Nat.toDigits 8 n)))
  else if c.integer 2==16 then .ofBytes (ofText (Number.hexDigits 1 n))
  else .noText
end PatternScan.Module.Math