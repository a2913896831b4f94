import PatternScan.Grammar.Parser
import PatternScan.Rule.Action
namespace PatternScan.Rule
open Bytes Grammar
def LexFault.message:LexFault→String
 | .identifierTooLong=>"identifier too long"
 | .unterminatedText=>"unterminated string"
 | .illegalEscape=>"illegal escape sequence"
 | .emptyRegexp=>"empty regular expression"
 | .malformedRegexp=>"malformed regular expression"
 | .unterminatedRegexp=>"unterminated regular expression"
 | .nonAscii=>"non-ascii character"
 | .numberTooLarge numeral=>numeral
 | .literalTooLong=>"out of space in lex_buf"
namespace Compiler
def reportFault (c:Compiler)(f:LexFault):Compiler:=
 match f with
 | .numberTooLarge numeral=>(c.setDetail numeral).reportCode .integerOverflow
 | .nonAscii=>(c.setDetail f.message).reportCode .syntaxError
 | _=>c.reportText f.message
inductive Inclusion where
 | entered | skipped | refused
def includeSource (c:Compiler)(held:Bytes):Inclusion×Compiler:=
 let name:=untilNul held
 match c.setting.includes with
 | none=>(.skipped,c.reportText "includes are disabled")
 | some sources=>
  match sources.find? fun (n,_)=>n==name with
  | none=>
   (.skipped,c.reportText (cut 512 ("callback failed to provide include resource: "++latin1 name)))
  | some (_,text)=>
   match c.pushFile (latin1 name) with
   | .ok c=>(.entered,{c with lexer:=c.lexer.enter text})
   | .error .includesCircularReference=>
    (.refused,c.reportText "includes circular reference")
   | .error _=>(.refused,c.reportText "includes depth exceeded")
def nextTerminal:Nat → Compiler→(Terminal×Literal)×Compiler
 | 0,c=>((.endOfFile,.none),c)
 | allowance+1,c=>
  let (found,lexer):=c.lexer.next
  let c:={c with lexer:=lexer}
  match found with
  | .terminal t value=>((t,value),c)
  | .nothing=>nextTerminal allowance c
  | .fault f=>((.endOfFile,.none),c.reportFault f)
  | .bufferEnd=>
   if lexer.buffers.isEmpty then ((.endOfFile,.none),c) else ((.endOfInclude,.none),c)
  | .included held=>
   match c.includeSource held with
   | (.refused,c)=>((.endOfFile,.none),c)
   | (_,c)=>nextTerminal allowance c
def sourceSize (c:Compiler):Nat:=
 let included:=(c.setting.includes.getD []).foldl (fun n (_,text)=>n+text.size+1) 0
 c.lexer.buffers.foldl (fun n b=>n+b.text.size+1) included
end Compiler
def client:Client Compiler Value where
 next:=fun c=>
  let ((t,value),c):=c.nextTerminal (c.sourceSize+1)
  ((t.number,.literal value),c)
 reduce:=fun production parts below c=>
  let action:=perform (forms.getD production .blank) parts (below.take 3 |>.map (·.2))
  match action.run c with
  | (.ok value,c)=>(.value value,c)
  | (.error .failed,c)=>(.failed,c)
  | (.error .stopped,c)=>(.stopped,c)
 report:=fun text c=>c.reportText text
 nameOf:=fun n=>Terminal.nameOf n
 blank:=.none
def parserAllowance:Nat:=0x4000000000000000
namespace Compiler
def parse (t:Table)(c:Compiler)(text:Bytes):Compiler:=
 Parse.run t client parserAllowance {client:={c with lexer:={buffers:=[{text:=text}]},errors:=0}}
def add (t:Table)(c:Compiler)(space:String)(file:Option String)(text:Bytes):
 Compiler:=
 let c:={c.enterSpace space with failure:=.success}
 match file with
 | none=>c.parse t text
 | some name=>
  match c.pushFile name with
  | .error code=>{c with failure:=code,errors:=c.errors+1}
  | .ok c=>(c.parse t text).popFile
def define (c:Compiler)(name:String)(value:ExternalValue):ResultCode×Compiler:=
 if c.globals.contains name then (.duplicatedExternalVariable,c)
 else
  (.success,{ c with
     externals:=c.externals.push {name:=name,value:=value}
     globals:=c.globals.insert name value.object })
end Compiler
end PatternScan.Rule
