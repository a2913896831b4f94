namespace PatternScan.Limits
def atomLength:Nat:=4
def atomQuality:Int:=255
def atomQualityWarning:Int:=255-22*4+38
def atomsPerRule:Nat:=12000
def loopNesting:Nat:=4
def includeDepth:Nat:=16
def stringMatches:Nat:=1000000
def slowStringMatches:Nat:=600000
def largeInput:Nat:=200000
def functionArguments:Nat:=128

/-- A longer jump splits a string into parts that are searched on their own. -/
def chainingGap:Nat:=200
def literalBuffer:Nat:=8192
def message:Nat:=256
def regexBranches:Nat:=128
def regexRepeat:Nat:=32767
def regexThreads:Nat:=1024
def regexInput:Nat:=4096
def parserDepth:Nat:=10000
end PatternScan.Limits
