/-! A finite number is `m * 2 ^ e` for natural `m` and an integer `e`. -/
namespace PatternScan.Number
def roundDiv (a b:Nat):Nat:=
 let q:=a/b
 let r:=a%b
 if 2*r<b then q else if b<2*r then q+1 else if q%2==0 then q else q+1
structure Parts where
 negative:Bool
 exponent:Nat
 fraction:Nat
def parts (bits:UInt64):Parts:=
 let n:=bits.toNat
 { negative:=n.testBit 63
   exponent:=n/0x10000000000000%2048
   fraction:=n%0x10000000000000 }
def fixed (places:Nat)(x:Float):String:=
 let p:=parts x.toBits
 let sign:=if p.negative then "-" else ""
 if p.exponent==2047 then sign++(if p.fraction==0 then "inf" else "nan")
 else
  let m:=if p.exponent==0 then p.fraction else p.fraction+0x10000000000000
  let e:Int:=(max p.exponent 1:Nat)-(1075:Int)
  let ten:=Nat.pow 10 places
  let scaled:=
   if 0≤e then (m*ten) <<< e.toNat
   else roundDiv (m*ten) (1 <<< (-e).toNat)
  let whole:=toString (scaled/ten)
  let rest:=toString (scaled%ten)
  sign++whole++(if places==0 then "" else "."++"".pushn '0' (places-rest.length)++rest)
def hexDigits (width n:Nat):String:=
 let digits:=String.ofList (Nat.toDigits 16 n)
 "".pushn '0' (width-digits.length)++digits
def hexadecimal (bits:UInt64):String:=
 let p:=parts bits
 let sign:=if p.negative then "-" else ""
 if p.exponent==2047 then sign++(if p.fraction==0 then "inf" else "nan")
 else
  let lead:=if p.exponent==0 then "0" else "1"
  let e:Int:=
   if p.exponent==0 then (if p.fraction==0 then 0 else -1022) else p.exponent-1023
  let fraction:=
   if p.fraction==0 then ""
   else
    let digits:=((hexDigits 13 p.fraction).toList.reverse.dropWhile (· == '0')).reverse
    "."++String.ofList digits
  sign++"0x"++lead++fraction++"p"++(if e<0 then "-" else "+")++toString e.natAbs
end PatternScan.Number
