import PatternScan.Limits
import PatternScan.Grammar.Table
namespace PatternScan.Grammar
inductive Reduced (β:Type) where
 | value (b:β)
 | failed | stopped
structure Client (S β:Type) where
 next:S→(Nat×β)×S
 /-- Performs the action of a production on the values of its parts; those of what stands before them, the nearest
 first, are there to look at. -/
 reduce:Nat→List β→List (Nat×β)→S→Reduced β×S
 report:String→S→S
 nameOf:Nat→String
 blank:β
structure Parse (S β:Type) where
 stack:List (Nat×β):=[]
 depth:Nat:=1
 ahead:Option (Nat×β):=none
 /-- How many tokens have to be shifted before errors are reported again. -/
 recovering:Nat:=0
 client:S
inductive Progress (S β:Type) where
 | more (p:Parse S β)
 | done (client:S)
namespace Parse
variable {S β:Type}
def top (p:Parse S β):Nat:=
 match p.stack with
 | []=>0
 | (state,_)::_=>state
def enter (t:Table)(c:Client S β)(p:Parse S β)(state:Nat)(value:β):Progress S β:=
 let p:={p with stack:=(state,value)::p.stack,depth:=p.depth+1}
 if Limits.parserDepth≤p.depth then .done (c.report "memory exhausted" p.client)
 else if state==t.final then .done p.client
 else .more p
def unwind (t:Table):List (Nat×β)→Nat→Option (List (Nat×β)×Nat×Nat)
 | [],depth=>(t.recovery? 0).map fun q=>([],depth,q)
 | (state,value)::rest,depth=>
  match t.recovery? state with
  | some q=>some ((state,value)::rest,depth,q)
  | none=>unwind t rest (depth-1)
def recover (t:Table)(c:Client S β)(p:Parse S β):Progress S β:=
 match unwind t p.stack p.depth with
 | none=>.done p.client
 | some (stack,depth,q)=>
  enter t c {p with stack:=stack,depth:=depth,recovering:=3} q c.blank
def complaint (t:Table)(c:Client S β)(state token:Nat):String:=
 let unexpected:="syntax error, unexpected "++c.nameOf token
 let expected:=(t.row state).expected
 match expected with
 | []=>unexpected
 | first::rest=>
  if 4<expected.length then unexpected
  else rest.foldl (fun text token=>text++" or "++c.nameOf token) (unexpected++", expecting "++c.nameOf first)
def refuse (t:Table)(c:Client S β)(p:Parse S β)(token:Nat):Progress S β:=
 let p:=
  if p.recovering==0 then {p with client:=c.report (complaint t c p.top token) p.client}
  else p
 if p.recovering==3 then
  if token==endToken then .done p.client else recover t c {p with ahead:=none}
 else recover t c p
def take:Nat→List (Nat×β)→List β→List β×List (Nat×β)
 | 0,stack,values=>(values,stack)
 | _+1,[],values=>(values,[])
 | n+1,(_,value)::rest,values=>take n rest (value::values)
def reduce (t:Table)(c:Client S β)(p:Parse S β)(production:Nat):Progress S β:=
 let (phrase,size):=t.shapes.getD production (0,0)
 let (values,stack):=take size p.stack []
 let (answer,client):=c.reduce production values stack p.client
 let p:={p with stack:=stack,depth:=p.depth-size,client:=client}
 match answer with
 | .value b=>
  match t.goto? p.top phrase with
  | some q=>enter t c p q b
  | none=>.done p.client
 | .failed=>recover t c p
 | .stopped=>.done p.client
def default (t:Table)(c:Client S β)(p:Parse S β)(token:Nat):Progress S β:=
 match (t.row p.top).fallback with
 | some production=>reduce t c p production
 | none=>refuse t c p token
def step (t:Table)(c:Client S β)(p:Parse S β):Progress S β:=
 if (t.row p.top).silent then default t c p endToken
 else
  let ((token,value),client):=
   match p.ahead with
   | some ahead=>(ahead,p.client)
   | none=>c.next p.client
  let p:={p with ahead:=some (token,value),client:=client}
  match t.action? p.top token with
  | some (.shift q)=>
   enter t c {p with ahead:=none,recovering:=p.recovering-1} q value
  | some (.reduce production)=>reduce t c p production
  | none=>default t c p token
def run (t:Table)(c:Client S β):Nat→Parse S β→S
 | 0,p=>p.client
 | allowance+1,p=>
  match step t c p with
  | .more p=>run t c allowance p
  | .done client=>client
end Parse
end PatternScan.Grammar
