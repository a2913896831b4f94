import PatternScan.Bytes.Basic
/-! Every window of five bytes counts towards six buckets, chosen by a hash of three of its bytes. -/
namespace PatternScan.Tlsh
open List Bytes
def permutation:Array UInt8:=
 #[1,87,49,12,176,178,102,166,121,193,6,84,249,230,44,163,14,197,213,181,161,
  85,218,80,64,239,24,226,236,142,38,200,110,177,104,103,141,253,255,50,77,
  101,81,18,45,96,31,222,25,107,190,70,86,237,240,34,72,242,20,214,244,227,
  149,235,97,234,57,22,60,250,82,175,208,5,127,199,111,62,135,248,174,169,211,
  58,66,154,106,195,245,171,17,187,182,179,0,243,132,56,148,75,128,133,158,
  100,130,126,91,13,153,246,216,219,119,68,223,78,83,88,201,99,122,11,92,32,
  136,114,52,10,138,30,48,183,156,35,61,26,143,74,251,94,129,162,63,152,170,
  7,115,167,241,206,3,150,55,59,151,220,90,53,23,131,125,173,15,238,79,95,89,
  16,105,137,225,224,217,160,37,123,118,73,2,157,46,116,9,145,134,228,207,212,
  202,215,69,229,27,188,67,124,168,252,42,4,29,108,21,247,19,205,39,203,233,
  40,186,147,198,192,155,33,164,191,98,204,165,180,117,76,140,36,210,172,41,
  54,159,8,185,232,113,196,231,47,146,120,51,65,28,144,254,221,93,189,194,139,112,43,71,109,184,209]
def lengthSteps:List Nat:=
 [1,2,3,5,7,11,17,25,38,57,86,129,194,291,437,656,854,1110,1443,1876,2439,
  3171,3475,3823,4205,4626,5088,5597,6157,6772,7450,8195,9014,9916,10907,11998,
  13198,14518,15970,17567,19323,21256,23382,25720,28292,31121,34233,37656,41422,
  45564,50121,55133,60646,66711,73382,80721,88793,97672,107439,118183,130002,143002,
  157302,173032,190335,209369,230306,253337,278670,306538,337191,370911,408002,448802,
  493682,543050,597356,657091,722800,795081,874589,962048,1058252,1164078,1280486,
  1408534,1549388,1704327,1874759,2062236,2268459,2495305,2744836,3019320,3321252,
  3653374,4018711,4420582,4862641,5348905,5883796,6472176,7119394,7831333,8614467,
  9475909,10423501,11465851,12612437,13873681,15261050,16787154,18465870,20312458,
  22343706,24578077,27035886,29739474,32713425,35984770,39583245,43541573,47895730,
  52685306,57953837,63749221,70124148,77136564,84850228,93335252,102668779,112935659,
  124229227,136652151,150317384,165349128,181884040,200072456,220079703,242087671,
  266296456,292926096,322218735,354440623,389884688,428873168,471760495,518936559,
  570830240,627913311,690704607,759775136,835752671,919327967,1011260767,1112386880,
  1223623232,1345985727,1480584256,1628642751,1791507135,1970657856,2167723648,2384496256,
  2622945920,2885240448,3173764736,3491141248,3840255616,4224281216]
def permute (c:UInt8):UInt8:=permutation.getD c.toNat 0
def mix (salt a b c:UInt8):UInt8:=permute (permute (permute (salt ^^^ a) ^^^ b) ^^^ c)
structure State where
 buckets:Array UInt32:=Array.replicate 256 0
 checksum:UInt8:=0
 recent:List UInt8:=[0,0,0,0]
 length:Nat:=0
deriving Inhabited
structure Options where
 conservative:Bool:=false
 withoutChecksum:Bool:=false
def Options.ofMask (n:Nat):Options:=
 {conservative:=n.testBit 1,withoutChecksum:=n.testBit 3||n.testBit 4}
def State.count (s:State)(a b c d e:UInt8):State:=
 let add (l:Array UInt32)(h:UInt8):Array UInt32:=l.modify h.toNat (·+1)
 let l:=add s.buckets (mix 49 a b c)
 let l:=add l (mix 12 a b d)
 let l:=add l (mix 178 a c d)
 let l:=add l (mix 166 a c e)
 let l:=add l (mix 84 a b e)
 let l:=add l (mix 230 a d e)
 {s with buckets:=l,checksum:=mix 1 a b s.checksum}
def before (data:Bytes)(recent:List UInt8)(i k:Nat):UInt8:=
 if k ≤ i then data.byteAt (i-k) else recent.getD (k-i-1) 0
def State.update (s:State)(data:Bytes):State:=
 let first:=4-s.length
 if data.size≤first then {s with length:=s.length+data.size}
 else
  let recent:=s.recent
  let at_ (i k:Nat):UInt8:=before data recent i k
  let s:=(data.size-first).fold (fun n _ s=>
    let i:=first+n
    s.count (at_ i 0) (at_ i 1) (at_ i 2) (at_ i 3) (at_ i 4)) s
  { s with
    recent:=[at_ data.size 1,at_ data.size 2,at_ data.size 3,at_ data.size 4]
    length:=s.length+data.size }
def State.updateLast (s:State)(o:Options)(data:Bytes):State:=
 if data.isEmpty then s
 else
  let s:=s.update data
  if o.withoutChecksum then {s with checksum:=0} else s
structure Digest where
 checksum:UInt8
 length:UInt8
 ratio1:Nat
 ratio2:Nat
 code:List UInt8
 deriving DecidableEq
def lengthValue (n:Nat):UInt8:=(lengthSteps.countP (·<n)).toUInt8
def ratio (q q3:UInt32):Nat:=((q*100).toFloat32/q3.toFloat32).toUInt32.toNat%16
def rank (q1 q2 q3 k:UInt32):Nat:=if q3<k then 3 else if q2<k then 2 else if q1<k then 1 else 0
def State.digest? (s:State)(o:Options):Option Digest:=
 let least:=if o.conservative then 256 else 50
 let counts:=s.buckets.toList.take 128
 let sorted:=(counts.mergeSort (· ≤ ·)).toArray
 let q1:=sorted.getD 31 0
 let q2:=sorted.getD 63 0
 let q3:=sorted.getD 95 0
 if s.length<least||q3==0||counts.countP (0<·)≤64 then none
 else
  let byte (i:Nat):UInt8:=
   ((range 4).foldl
    (fun h j=>h+rank q1 q2 q3 (s.buckets.getD (4*i+j) 0) <<< (2*j)) 0).toUInt8
  some
   { checksum:=s.checksum
     length:=lengthValue s.length
     ratio1:=ratio q1 q3
     ratio2:=ratio q2 q3
     code:=(range 32).map byte }
def digest? (data:Bytes):Option Digest:=(({}:State).updateLast {} data).digest? {}
def swapDigits (c:UInt8):UInt8:=c/16+c%16*16
namespace Digest
def bytes (d:Digest):List UInt8:=
 [swapDigits d.checksum,swapDigits d.length,(d.ratio1*16+d.ratio2).toUInt8]++d.code.reverse
def text (d:Digest)(version:Bool):String:=
 (if version then "T1" else "")++(hex (ofList d.bytes)).map Char.toUpper
def textLength:Nat:=70
def ofText? (b:Bytes):Option Digest:=
 let start:=if b.occursAt (ofText "T1") 0 then 2 else 0
 let isDigit (i:Nat):Bool:=isHexDigit (b.byteAt (start+i))
 if !(range textLength).all isDigit||isDigit textLength then none
 else
  let value (i:Nat):Nat:=hexValue (b.byteAt (start+i))
  let byte (k:Nat):UInt8:=(value (2*k)*16+value (2*k+1)).toUInt8
  some
   { checksum:=swapDigits (byte 0)
     length:=swapDigits (byte 1)
     ratio1:=value 4
     ratio2:=value 5
     code:=((range 32).map fun k=>byte (k+3)).reverse }
def ranks (d:Digest):List Nat:=
 d.code.reverse.flatMap fun c=>
  [c.toNat/64,c.toNat/16%4,c.toNat/4%4,c.toNat%4]
def circular (x y size:Nat):Nat:=min (max x y-min x y) (min x y+size-max x y)
def ratioPenalty (d:Nat):Nat:=if d≤1 then d else (d-1)*12
def lengthPenalty (d:Nat):Nat:=if d≤1 then d else d*12
def rankPenalty (a b:Nat):Nat:=
 let d:=max a b-min a b
 if d==3 then 6 else d
def distance (a b:Digest)(lengths:Bool):Nat:=
 (if lengths then lengthPenalty (circular a.length.toNat b.length.toNat 256) else 0) +
  ratioPenalty (circular a.ratio1 b.ratio1 16)+ratioPenalty (circular a.ratio2 b.ratio2 16) +
  (if a.checksum==b.checksum then 0 else 1) +
  ((a.ranks.zip b.ranks).map fun (x,y)=>rankPenalty x y).foldr (·+·) 0
end Digest
end PatternScan.Tlsh
