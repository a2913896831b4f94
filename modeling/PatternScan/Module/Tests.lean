import PatternScan.Module.Call
namespace PatternScan.Module.Tests
open Bytes
def declarations:Object:=
 let pair:Object:=.record [("i",.noInteger),("s",.noText)]
 .record [("constants",.record [("one",.noInteger),("two",.noInteger),("foo",.noText),("empty",.noText)]),
   ("undefined",.record [("i",.noInteger),("f",.noFloat)]),("module_data",.noText),
   ("integer_array",.arrayOf .noInteger),("string_array",.arrayOf .noText),
   ("integer_dict",.dictionaryOf .noInteger),("string_dict",.dictionaryOf .noText),
   ("struct_array",.arrayOf pair),("struct_dict",.dictionaryOf pair),
   ("empty_struct_dict",.dictionaryOf (.record [("unused",.noInteger)])),
   ("empty_struct_array",.arrayOf (.record [("struct_array",.arrayOf (.record [("unused",.noText)])),
     ("struct_dict",.dictionaryOf (.record [("unused",.noText)]))])),
   ("match",overloaded .noInteger [("rs",.tests .matching)]),
   ("isum",overloaded .noInteger [("ii",.tests .sumOfTwo),("iii",.tests .sumOfThree)]),
   ("fsum",overloaded .noFloat [("ff",.tests .floatSumOfTwo),("fff",.tests .floatSumOfThree)]),
   ("length",overloaded .noInteger [("s",.tests .length)]),("empty",overloaded .noText [("",.tests .empty)]),
   ("foobar",overloaded .noText [("i",.tests .foobar)])]
def load (data:Option Bytes):Object:=
 let d:=declarations
 let text (s:String):Object:=.ofBytes (ofText s)
 let member (name:String):Object:=(d.member? name).getD default
 let pair:Object:=(member "struct_array").pattern.copy
 let integers:Array (Option Object):=
  Object.setItem ((#[0,1,2]:Array Int64).map fun v=>some (.integer v)) 256 (.integer 256)
 let strings:Array Object:=
  #[text "foo",text "bar",text "baz",.ofBytes (ofText "foo\x00bar")]
 d.setMembers ([("constants",(member "constants").setMembers
   [("one",.integer 1),("two",.integer 2),("foo",text "foo"),("empty",text "")]),
   ("struct_array",.array (member "struct_array").pattern #[none,some (pair.setMember "i" (.integer 1))]),
   ("integer_array",.array .noInteger integers),("string_array",.array .noText (strings.map some)),
   ("string_dict",.dictionary .noText #[(ofText "foo",text "foo"),(ofText "bar",text "bar")]),
   ("struct_dict",.dictionary (member "struct_dict").pattern
    #[(ofText "foo",pair.setMembers [("s",text "foo"),("i",.integer 1)])])]
  ++ match data with
   | some b=>if b.isEmpty then [] else [("module_data",.ofBytes b)]
   | none=>[])
def call (f:TestFunction)(c:Call):Object:=
 match f with
 | .matching=>.ofInt ((c.matchLength? 1 (c.text 2)).elim (-1) Int.ofNat)
 | .sumOfTwo=>.integer (c.integer 1+c.integer 2)
 | .sumOfThree=>.integer (c.integer 1+c.integer 2+c.integer 3)
 | .floatSumOfTwo=>.float (c.float 1+c.float 2)
 | .floatSumOfThree=>.float (c.float 1+c.float 2+c.float 3)
 | .length=>.ofNat (c.name 1).size
 | .empty=>.ofBytes ByteArray.empty
 | .foobar=>
  .ofBytes (ofText (if c.integer 1==1 then "foo" else if c.integer 1==2 then "bar" else "oops"))
end PatternScan.Module.Tests
