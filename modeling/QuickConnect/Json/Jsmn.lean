import QuickConnect.Lib.ScanLoop
import QuickConnect.Lib.Text
import Mathlib.Data.List.Basic

/-! The tokenizer jsmn.h, built with JSMN_PARENT_LINKS and JSMN_STRICT. A text is the
bytes up to the length given to the parser; where the parser fails its position is not kept. -/
namespace QuickConnect.Jsmn
open Text ScanLoop

inductive TokenType
  | undefined
  | object
  | array
  | string
  | primitive
  deriving DecidableEq

-- `stop` is the field `end`.
structure Token where
  type : TokenType
  start : Int
  stop : Int
  size : Nat
  parent : Int
  deriving DecidableEq

/-- A token of an array that calloc returned. -/
def Token.blank : Token := ⟨.undefined,0,0,0,0⟩

/-- The values of jsmnerr. `outside` is no return value: a token that the array does not
have would be touched. -/
inductive Err
  | noMem
  | inval
  | part
  | outside
  deriving DecidableEq

structure Parser where
  pos : Nat
  toknext : Nat
  toksuper : Int
  deriving DecidableEq

def init : Parser := ⟨0,0,-1⟩

def tokenAt (tokens : List Token) (index : Int) : Except Err Token :=
  if index < 0 then .error .outside
  else match tokens[index.toNat]? with
    | none => .error .outside
    | some token => .ok token

def update (tokens : List Token) (index : Int) (change : Token → Token) :
    Except Err (List Token) := do
  let token ← tokenAt tokens index
  .ok (tokens.set index.toNat (change token))

def allocToken (parser : Parser) (tokens : List Token) : Except Err (Parser × List Token) :=
  match tokens[parser.toknext]? with
  | none => .error .noMem
  | some token =>
    .ok ({ parser with toknext := parser.toknext + 1 },
      tokens.set parser.toknext { token with start := -1, stop := -1, size := 0, parent := -1 })

def fillToken (token : Token) (type : TokenType) (start stop : Nat) : Token :=
  { token with type := type, start := start, stop := stop, size := 0 }

/-- The loop of jsmn_parse_primitive, up to the label `found`. -/
def primitiveEnd (js : Str) : Nat → Nat → Except Err Nat
  | 0, _ => .error .part
  | fuel + 1, pos => match js[pos]? with
    | none => .error .part
    | some c =>
      if c = 0 then .error .part
      else if c ∈ [9,13,10,32,44,93,125] then .ok pos
      else if c < 32 ∨ 127 ≤ c then .error .inval
      else primitiveEnd js fuel (pos + 1)

def isHex (c : UInt8) : Bool := (48 ≤ c && c ≤ 57) || (65 ≤ c && c ≤ 70) || (97 ≤ c && c ≤ 102)

/-- The four characters after `\u`. -/
def hexEnd (js : Str) : Nat → Nat → Except Err Nat
  | 0, pos => .ok pos
  | i + 1, pos => match js[pos]? with
    | none => .ok pos
    | some c =>
      if c = 0 then .ok pos
      else if isHex c then hexEnd js i (pos + 1)
      else .error .inval

def escapes : List UInt8 := [34,47,92,98,102,114,110,116]

/-- The loop of jsmn_parse_string, from behind the opening quote to the closing one. -/
def stringEnd (js : Str) : Nat → Nat → Except Err Nat
  | 0, _ => .error .part
  | fuel + 1, pos => match js[pos]? with
    | none => .error .part
    | some c =>
      if c = 0 then .error .part
      else if c = quote then .ok pos
      else if c = backslash then
        match js[pos + 1]? with
        -- A backslash at the very end is no escape.
        | none => stringEnd js fuel (pos + 1)
        | some e =>
          if e ∈ escapes then stringEnd js fuel (pos + 2)
          else if e = 117 then do
            let pos ← hexEnd js 4 (pos + 2)
            stringEnd js fuel pos
          else .error .inval
      else stringEnd js fuel (pos + 1)

/-- A string or a primitive found: its token, when there is an array for it. -/
def addToken (type : TokenType) (start stop : Nat) (parser : Parser) :
    Option (List Token) → Except Err (Parser × Option (List Token))
  | none => .ok (parser,none)
  | some tokens => do
    let (parser,tokens) ← allocToken parser tokens
    let tokens ← update tokens (parser.toknext - 1) fun token =>
      { fillToken token type start stop with parent := parser.toksuper }
    .ok (parser,some tokens)

def parsePrimitive (js : Str) (parser : Parser) (tokens : Option (List Token)) :
    Except Err (Parser × Option (List Token)) := do
  let stop ← primitiveEnd js js.length parser.pos
  let (parser,tokens) ← addToken .primitive parser.pos stop parser tokens
  .ok ({ parser with pos := stop - 1 },tokens)

def parseString (js : Str) (parser : Parser) (tokens : Option (List Token)) :
    Except Err (Parser × Option (List Token)) := do
  let stop ← stringEnd js js.length (parser.pos + 1)
  let (parser,tokens) ← addToken .string (parser.pos + 1) stop parser tokens
  .ok ({ parser with pos := stop },tokens)

structure Scan where
  parser : Parser
  tokens : Option (List Token)
  count : Nat

/-- The labels of the switch of jsmn_parse. -/
inductive Label
  | opening (type : TokenType)
  | closing (type : TokenType)
  | quote
  | blank
  | colon
  | comma
  | literal
  | unexpected
  deriving DecidableEq

def label (c : UInt8) : Label :=
  if c = 123 then .opening .object
  else if c = 91 then .opening .array
  else if c = 125 then .closing .object
  else if c = 93 then .closing .array
  else if c = quote then .quote
  else if c = 9 ∨ c = 13 ∨ c = 10 ∨ c = 32 then .blank
  else if c = 58 then .colon
  else if c = comma then .comma
  else if c = 45 ∨ (48 ≤ c ∧ c ≤ 57) ∨ c = 116 ∨ c = 102 ∨ c = 110 then .literal
  else .unexpected

def link (parser : Parser) (index : Int) (tokens : List Token) : Except Err (List Token) :=
  if parser.toksuper ≠ -1 then do
    let super ← tokenAt tokens parser.toksuper
    -- An object or array cannot become a key.
    if super.type = .object then .error .inval
    else do
      let tokens ← update tokens parser.toksuper fun t => { t with size := t.size + 1 }
      update tokens index fun t => { t with parent := parser.toksuper }
  else .ok tokens

def opening (type : TokenType) (s : Scan) : Except Err Scan :=
  match s.tokens with
  | none => .ok { s with count := s.count + 1 }
  | some tokens => do
    let (parser,tokens) ← allocToken s.parser tokens
    let tokens ← link parser (parser.toknext - 1) tokens
    let tokens ← update tokens (parser.toknext - 1) fun t =>
      { t with type := type, start := parser.pos }
    .ok ⟨{ parser with toksuper := parser.toknext - 1 },some tokens,s.count + 1⟩

/-- The loop from the newest token up to the bracket that is open. -/
def close (type : TokenType) (pos : Nat) (toksuper : Int) (tokens : List Token) :
    Nat → Int → Except Err (Int × List Token)
  | 0, _ => .error .outside
  | fuel + 1, index => do
    let token ← tokenAt tokens index
    if token.start ≠ -1 ∧ token.stop = -1 then
      if token.type ≠ type then .error .inval
      else do
        let tokens ← update tokens index fun t => { t with stop := pos + 1 }
        .ok (token.parent,tokens)
    else if token.parent = -1 then
      if token.type ≠ type ∨ toksuper = -1 then .error .inval
      else .ok (toksuper,tokens)
    else close type pos toksuper tokens fuel token.parent

def closing (type : TokenType) (s : Scan) : Except Err Scan :=
  match s.tokens with
  | none => .ok s
  | some tokens =>
    if s.parser.toknext < 1 then .error .inval
    else do
      let (toksuper,tokens) ← close type s.parser.pos s.parser.toksuper tokens tokens.length
        (s.parser.toknext - 1)
      .ok { s with parser := { s.parser with toksuper := toksuper }, tokens := some tokens }

def counted (found : Parser × Option (List Token)) (count : Nat) : Except Err Scan :=
  match found.2 with
  | none => .ok ⟨found.1,none,count + 1⟩
  | some tokens =>
    if found.1.toksuper ≠ -1 then do
      let tokens ← update tokens found.1.toksuper fun t => { t with size := t.size + 1 }
      .ok ⟨found.1,some tokens,count + 1⟩
    else .ok ⟨found.1,some tokens,count + 1⟩

def string (js : Str) (s : Scan) : Except Err Scan := do
  let found ← parseString js s.parser s.tokens
  counted found s.count

def comma (s : Scan) : Except Err Scan :=
  match s.tokens with
  | none => .ok s
  | some tokens =>
    if s.parser.toksuper ≠ -1 then do
      let super ← tokenAt tokens s.parser.toksuper
      if super.type ≠ .array ∧ super.type ≠ .object then
        .ok { s with parser := { s.parser with toksuper := super.parent } }
      else .ok s
    else .ok s

-- A literal must not be a key of an object.
def literalAllowed (s : Scan) : Except Err Unit :=
  match s.tokens with
  | none => .ok ()
  | some tokens =>
    if s.parser.toksuper ≠ -1 then do
      let super ← tokenAt tokens s.parser.toksuper
      if super.type = .object ∨ (super.type = .string ∧ super.size ≠ 0) then .error .inval
      else .ok ()
    else .ok ()

def literal (js : Str) (s : Scan) : Except Err Scan := do
  literalAllowed s
  let found ← parsePrimitive js s.parser s.tokens
  counted found s.count

def switch (js : Str) (s : Scan) : Label → Except Err Scan
  | .opening type => opening type s
  | .closing type => closing type s
  | .quote => string js s
  | .blank => .ok s
  | .colon => .ok { s with parser := { s.parser with toksuper := s.parser.toknext - 1 } }
  | .comma => comma s
  | .literal => literal js s
  | .unexpected => .error .inval

def more (js : Str) (s : Scan) : Bool :=
  match js[s.parser.pos]? with
  | none => false
  | some c => c ≠ 0

def next (s : Scan) : Scan := { s with parser := { s.parser with pos := s.parser.pos + 1 } }

def step (js : Str) (s : Scan) : Except Err Scan := do
  let after ← switch js s (label (js[s.parser.pos]?.getD 0))
  .ok (next after)

def Token.isOpen (token : Token) : Bool := token.start ≠ -1 && token.stop = -1

def parse (parser : Parser) (js : Str) (tokens : Option (List Token)) : Except Err Scan := do
  let last ← scan (more js) (step js) js.length ⟨parser,tokens,parser.toknext⟩
  match last.tokens with
  | none => .ok last
  | some tokens =>
    -- An object or array that is still open.
    if (tokens.take last.parser.toknext).any Token.isOpen then .error .part
    else .ok last

end QuickConnect.Jsmn
