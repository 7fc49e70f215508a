import Heel.Host.PolicyInput
import Heel.Lib.JsonSame

/-! The oracle over `nft -j list table` (`readback_matches` of `deploy/host/h2_policy.py`): what it
accepts is one of the listings of the input's own table. -/
namespace Heel.HostPolicy
open Lib Lib.JsonText Lib.Checks

def object (fields : List (String × Value)) : Value := .obj (fields.map fun p => (points p.1, p.2))

def text (s : String) : Value := .str (points s)

def metaMark : Value := object [("meta", object [("key", text "mark")])]

def payload (protocol field : String) : Value :=
  object [("payload", object [("protocol", text protocol), ("field", text field)])]

def saddr : Value := payload "ip" "saddr"
def daddr : Value := payload "ip" "daddr"
def dport : Value := payload "tcp" "dport"

/-- `_match`, with one operator. -/
def matchOf (op : String) (left right : Value) : Value :=
  object [("match", object [("op", text op), ("left", left), ("right", right)])]

def acceptVerdict : Value := object [("accept", .null)]

/-- The number of the address that a text is. -/
def addressOf (s : Text) : ℕ := (parseIpv4 s).getD 0

def gateway (dst : Text) : Value :=
  object [("|", .arr [object [("&", .arr [daddr, .str dst])], .int (addressOf dst)])]

def setReference (name : Text) : Value := .str (points "@" ++ name)

def tableFields : List (String × Value) := [("family", text "inet"), ("name", .str tableName)]

def preparedFields (flags : Value) : List (String × Value) :=
  [("family", text "inet"), ("name", .str preparedSet), ("table", .str tableName),
    ("type", .arr [text "ipv4_addr", text "ipv4_addr", text "mark"]), ("flags", flags)]

def activatedFields : List (String × Value) :=
  [("family", text "inet"), ("name", .str activatedMap), ("table", .str tableName),
    ("type", .arr [text "ipv4_addr", text "ipv4_addr"]), ("map", text "mark")]

def chainFields : List (String × Value) :=
  [("family", text "inet"), ("table", .str tableName), ("name", .str gateChain),
    ("type", text "filter"), ("hook", text "output"), ("prio", .int 0), ("policy", text "drop")]

def ruleOwner : List Value := [text "inet", .str tableName, .str gateChain]

def resetExpr (value : Value) : List Value :=
  [object [("mangle", object [("key", metaMark), ("value", value)])]]

def lookupExpr (dst : Text) : List Value :=
  [object [("mangle", object [("key", metaMark), ("value", object [("map", object
    [("key", object [("concat", .arr [saddr, gateway dst])]),
      ("data", setReference activatedMap)])])])]]

def controlExpr (op : String) (src dst : Text) : List Value :=
  [matchOf op saddr (.str src), matchOf "==" daddr (.str dst), matchOf "==" dport (.int egressPort),
    acceptVerdict]

def admitLookup (op : String) (dst : Text) : Value :=
  matchOf op (object [("concat", .arr [saddr, gateway dst, metaMark])]) (setReference preparedSet)

def oneOf (v : Value) (choices : List Value) : Bool := choices.any fun choice => same v choice

/-- The members of an object whose only key is the given one. -/
def onlyMember (v : Value) (name : String) : Option Value :=
  match v with
  | .obj [(key, member)] => if key = points name then some member else none
  | _ => none

def handleKey : Text := points "handle"

def body (item : Value) (kind : String) : Option (List (Text × Value)) :=
  match onlyMember item kind with
  | some (.obj fields) =>
    match lookup fields handleKey with
    | none => some fields
    | some (.int n) => if 0 ≤ n then some (fields.filter fun p => p.1 ≠ handleKey) else none
    | some _ => none
  | _ => none

def isBody (item : Value) (kind : String) (expected : List (String × Value)) : Bool :=
  (body item kind).any fun fields => same (.obj fields) (object expected)

def hasKey (item : Value) (kind : String) : Bool :=
  match item with
  | .obj fields => (lookup fields (points kind)).isSome
  | _ => false

/-- The body that `sets` keeps of a kind: that of the last item with the key. -/
def lastBody (items : List Value) (kind : String) : Option (List (Text × Value)) :=
  ((items.filter fun item => hasKey item kind).getLast?).bind fun item => body item kind

def ruleKeys : List Text := ["family", "table", "chain", "expr"].map points

def ruleExpr (item : Value) : Option (List Value) :=
  match body item "rule" with
  | none => none
  | some fields =>
    if fields.all (fun p => ruleKeys.contains p.1) ∧
        same (.arr ((["family", "table", "chain"].map fun name =>
          (lookup fields (points name)).getD .null))) (.arr ruleOwner) then
      match lookup fields (points "expr") with
      | some (.arr expr) => some expr
      | _ => none
    else none

/-- The members that the target match pins, with its operator and left side. -/
def pinned (count : ℕ) (v : Value) : Option (Value × Value × List Text) :=
  match onlyMember v "match" with
  | some (.obj pins) =>
    if pins.all fun p => (["op", "left", "right"].map points).contains p.1 then
      match lookup pins (points "op"), lookup pins (points "left"),
        lookup pins (points "right") with
      | some op, some left, some right =>
        match onlyMember right "set" with
        | some (.arr members) => (members.mapM stringOf).map fun texts => (op, left, texts)
        | some _ => none
        | none =>
          match right with
          | .str s => if count = 1 then some (op, left, [s]) else none
          | _ => none
      | _, _, _ => none
    else none
  | _ => none

def sortTexts (xs : List Text) : List Text := xs.insertionSort (· ≤ ·)

variable (policy : H2PolicyInput)

/-- Does an expression match the targets of the input, and nothing else? -/
def pinsTargets (v : Value) : Bool :=
  let targets := (ipv4EgressTargets policy).map ipv4Text
  (pinned targets.length v).any fun p =>
    p.2.2.length = targets.length && sortTexts p.2.2 = sortTexts targets && same p.2.1 daddr &&
      oneOf p.1 [text "==", text "in"]

def admitMatches (admits : List Value) : Bool :=
  match admits with
  | [key, pins, port, verdict] =>
    same verdict acceptVerdict &&
      oneOf key [admitLookup "==" policy.slotHopDst, admitLookup "in" policy.slotHopDst] &&
      pinsTargets policy pins && same port (matchOf "==" dport (.int egressPort))
  | _ => false

/-- The listed items, without the metainfo that comes first. -/
def listed (document : Value) : Except String (List Value) :=
  match onlyMember document "nftables" with
  | some (.arr (first :: items)) =>
    match onlyMember first "metainfo" with
    | some (.obj fields) =>
      if (lookup fields (points "json_schema_version")).any fun v => same v (.int 1) then .ok items
      else .error "metainfo"
    | _ => .error "metainfo"
  | some (.arr []) => .error "metainfo"
  | _ => .error "document"

def checkRules (rules : List (List Value)) : Except String Unit :=
  match rules with
  | reset :: lookup :: control :: admits => do
    require (oneOf (.arr reset) [.arr (resetExpr (.int 0)), .arr (resetExpr (text "0x00000000"))])
      "reset_rule"
    require (same (.arr lookup) (.arr (lookupExpr policy.slotHopDst))) "lookup_rule"
    require (oneOf (.arr control) [.arr (controlExpr "==" policy.slotHopSrc policy.slotHopDst),
      .arr (controlExpr "in" policy.slotHopSrc policy.slotHopDst)]) "control_rule"
    match admits with
    | [admits] =>
      require (policy.controlOnly = true ∨ admitMatches policy admits = true) "admit_rule"
    | _ => return ()
  | _ => .error "items"

/-- `_readback`: the part that does not match, where one does not. -/
def readback (document : Value) : Except String Unit := do
  require ((ipv4EgressTargets policy).isEmpty = policy.controlOnly) "document"
  let items ← listed document
  require (items.length = if policy.controlOnly then 7 else 8) "items"
  match items with
  | table :: first :: second :: chain :: rules => do
    require (isBody table "table" tableFields) "table"
    require ((lastBody [first, second] "set").any fun fields =>
      oneOf (.obj fields) [object (preparedFields (.arr [text "timeout"])),
        object (preparedFields (text "timeout"))]) "prepared_set"
    require ((lastBody [first, second] "map").any fun fields =>
      same (.obj fields) (object activatedFields)) "activated_map"
    require (isBody chain "chain" chainFields) "chain"
    match rules.mapM ruleExpr with
    | some exprs => checkRules policy exprs
    | none => .error "items"
  | _ => .error "items"

def readbackMatches (document : Value) : Bool := accepts (readback policy document)

end Heel.HostPolicy
