import Heel.Host.Readback

/-! A document that the oracle accepts is a listing of the input's table, item by item, in one of
the enumerated encodings; two inputs whose listings it is have the same addresses and targets. -/
namespace Heel.HostPolicy
open Lib Lib.JsonText Lib.Checks

/-! ### Listings -/

/-- An item with the handle that the kernel may add. -/
def item (handle : Option ℕ) (kind : String) (fields : List (String × Value)) : Value :=
  object [(kind, object (fields ++ (handle.map fun n => ("handle", .int n)).toList))]

/-- The forms of the rules: of a zero mark, of the operators, and the targets in some order, where
one may stand bare. -/
structure RuleForms where
  resetText : Bool := false
  controlIn : Bool := false
  admitIn : Bool := false
  pinIn : Bool := false
  pinBare : Option Text := none
  members : List Text := []

/-- The tolerances of a listing: the metainfo, the handle of each item, the form of the flags, the
order of the two sets, and the forms of the rules. -/
structure Encoding extends RuleForms where
  metainfo : List (Text × Value)
  handle : ℕ → Option ℕ
  flagsBare : Bool
  mapFirst : Bool

def operator (set : Bool) : String := if set then "in" else "=="

/-- The right side of the match of the targets. -/
def pinsOf (pinBare : Option Text) (members : List Text) : Value :=
  match pinBare with
  | some member => .str member
  | none => object [("set", .arr (members.map .str))]

def listedTargets (pinBare : Option Text) (members : List Text) : List Text :=
  match pinBare with
  | some member => [member]
  | none => members

def ruleFields (expr : List Value) : List (String × Value) :=
  [("family", text "inet"), ("table", .str tableName), ("chain", .str gateChain),
    ("expr", .arr expr)]

variable (policy : H2PolicyInput)

def RuleForms.admitExpr (e : RuleForms) : List Value :=
  [admitLookup (operator e.admitIn) policy.slotHopDst, matchOf (operator e.pinIn) daddr
    (pinsOf e.pinBare e.members),
    matchOf "==" dport (.int egressPort), acceptVerdict]

/-- The two sets with their handles, in either order. -/
def setItems (flagsBare mapFirst : Bool) (first second : Option ℕ) : List Value :=
  let flags := if flagsBare then text "timeout" else .arr [text "timeout"]
  if mapFirst then [item first "map" activatedFields, item second "set" (preparedFields flags)]
  else [item first "set" (preparedFields flags), item second "map" activatedFields]

def RuleForms.rules (e : RuleForms) : List (List Value) :=
  [resetExpr (if e.resetText then text "0x00000000" else .int 0), lookupExpr policy.slotHopDst,
    controlExpr (operator e.controlIn) policy.slotHopSrc policy.slotHopDst] ++
    if policy.controlOnly then [] else [e.admitExpr policy]

/-- The items after the metainfo: the table, the two empty sets, the chain that drops, and the
rules. -/
def Encoding.items (e : Encoding) : List Value :=
  item (e.handle 0) "table" tableFields ::
    (setItems e.flagsBare e.mapFirst (e.handle 1) (e.handle 2) ++
      item (e.handle 3) "chain" chainFields ::
        (e.rules policy).mapIdx fun i expr => item (e.handle (i + 4)) "rule" (ruleFields expr))

def Encoding.document (e : Encoding) : Value :=
  object [("nftables", .arr (object [("metainfo", .obj e.metainfo)] :: e.items policy))]

/-- The encoding lists the targets of the input. -/
structure Encoding.Fits (e : Encoding) : Prop where
  version : lookup e.metainfo (points "json_schema_version") = some (.int 1)
  targets : policy.controlOnly = false →
    (listedTargets e.pinBare e.members).Perm ((ipv4EgressTargets policy).map ipv4Text)

/-! ### The parts of the oracle -/

theorem onlyMember_some {v member : Value} {name : String} (h : onlyMember v name = some member) :
    v = object [(name, member)] := by
  unfold onlyMember at h
  split at h
  · split at h
    · next hkey =>
      cases h
      rw [hkey]
      rfl
    · cases h
  · cases h

theorem body_some {v : Value} {kind : String} {fields : List (Text × Value)}
    (h : body v kind = some fields) : ∃ all, v = object [(kind, .obj all)] ∧
      ((lookup all handleKey = none ∧ fields = all) ∨
        ∃ n : ℕ, lookup all handleKey = some (.int n) ∧
          fields = all.filter fun p => p.1 ≠ handleKey) := by
  unfold body at h
  split at h
  · next all hall =>
    refine ⟨all, onlyMember_some hall, ?_⟩
    split at h
    · next hnone =>
      cases h
      exact .inl ⟨hnone, rfl⟩
    · next n hn =>
      split at h
      · next hpositive =>
        cases h
        obtain ⟨k, rfl⟩ := Int.eq_ofNat_of_zero_le hpositive
        exact .inr ⟨k, hn, rfl⟩
      · cases h
    · cases h
  · cases h

theorem lookup_filter {fields : List (Text × Value)} {name : Text} (h : name ≠ handleKey) :
    lookup (fields.filter fun p => p.1 ≠ handleKey) name = lookup fields name := by
  unfold lookup
  rw [List.find?_filter]
  congr 1
  refine congrFun (congrArg List.find? (funext fun p => ?_)) fields
  by_cases hp : p.1 = name
  · simp [hp, h]
  · simp [hp]

theorem same_of_members {fields : List (Text × Value)} {expected : List (String × Value)}
    (hkeys : ∀ p ∈ fields, p.1 ∈ (expected.map Prod.fst).map points)
    (h : ∀ p ∈ expected, ∃ w, lookup fields (points p.1) = some w ∧ same w p.2 = true) :
    same (.obj fields) (object expected) = true := by
  refine same_obj.mpr ⟨fields, rfl, ?_, ?_⟩
  · rw [sameKeys, Bool.and_eq_true, List.all_eq_true, List.all_eq_true]
    constructor
    · intro p hp
      obtain ⟨name, hname, hkey⟩ := List.mem_map.mp (hkeys p hp)
      obtain ⟨q, hq, rfl⟩ := List.mem_map.mp hname
      exact lookup_isSome.mpr ⟨q.2, List.mem_map.mpr ⟨q, hq, by rw [hkey]⟩⟩
    · intro p hp
      obtain ⟨q, hq, rfl⟩ := List.mem_map.mp hp
      obtain ⟨w, hw, -⟩ := h q hq
      rw [hw]
      rfl
  · intro p hp
    obtain ⟨q, hq, rfl⟩ := List.mem_map.mp hp
    exact h q hq

theorem same_single {name : String} {v e : Value} (h : same v e = true) :
    same (object [(name, v)]) (object [(name, e)]) = true := by
  refine same_obj.mpr ⟨_, rfl, by simp [sameKeys, lookup], ?_⟩
  intro p hp
  simp only [List.map_cons, List.map_nil, List.mem_singleton] at hp
  subst hp
  exact ⟨v, by simp [lookup], h⟩

/-- The item of a body that is as expected is the expected item, with its handle. -/
theorem item_of_body {v : Value} {kind : String} {fields : List (Text × Value)}
    {expected : List (String × Value)} (h : body v kind = some fields)
    (hsame : same (.obj fields) (object expected) = true) :
    ∃ handle, same v (item handle kind expected) = true := by
  obtain ⟨all, rfl, hall⟩ := body_some h
  obtain ⟨fields', hfields', hkeys, hparts⟩ := same_obj.mp hsame
  rw [Value.obj.injEq] at hfields'
  subst hfields'
  rw [sameKeys, Bool.and_eq_true, List.all_eq_true, List.all_eq_true] at hkeys
  rcases hall with ⟨-, rfl⟩ | ⟨n, hn, rfl⟩
  · refine ⟨none, same_single ?_⟩
    rwa [Option.map_none, Option.toList_none, List.append_nil]
  · refine ⟨some n, same_single (same_obj.mpr ⟨all, rfl, ?_, ?_⟩)⟩
    · rw [sameKeys, Bool.and_eq_true, List.all_eq_true, List.all_eq_true]
      constructor
      · intro p hp
        rw [lookup_isSome]
        by_cases hhandle : p.1 = handleKey
        · exact ⟨.int n, by simp [hhandle, handleKey]⟩
        · obtain ⟨w, hw⟩ :=
            lookup_isSome.mp (hkeys.1 p (List.mem_filter.mpr ⟨hp, by simpa using hhandle⟩))
          exact ⟨w, by rw [List.map_append]; exact List.mem_append_left _ hw⟩
      · intro p hp
        rw [List.map_append, List.mem_append] at hp
        rcases hp with hp | hp
        · obtain ⟨w, hw⟩ := lookup_isSome.mp (hkeys.2 p hp)
          exact lookup_isSome.mpr ⟨w, (List.mem_filter.mp hw).1⟩
        · simp only [Option.map_some, Option.toList_some, List.map_cons, List.map_nil,
            List.mem_singleton] at hp
          subst hp
          rw [show points "handle" = handleKey from rfl, hn]
          rfl
    · intro p hp
      rw [List.map_append, List.mem_append] at hp
      rcases hp with hp | hp
      · obtain ⟨w, hw, hsame⟩ := hparts p hp
        have hne : p.1 ≠ handleKey := by
          have hmem := (List.mem_filter.mp (lookup_some hw)).2
          simpa using hmem
        rw [lookup_filter hne] at hw
        exact ⟨w, hw, hsame⟩
      · simp only [Option.map_some, Option.toList_some, List.map_cons, List.map_nil,
          List.mem_singleton] at hp
        subst hp
        exact ⟨.int n, hn, same_int.mpr rfl⟩

theorem item_of_isBody {v : Value} {kind : String} {expected : List (String × Value)}
    (h : isBody v kind expected = true) : ∃ handle, same v (item handle kind expected) = true := by
  rw [isBody, Option.any_eq_true] at h
  obtain ⟨fields, hfields, hsame⟩ := h
  exact item_of_body hfields hsame

theorem oneOf_iff {v : Value} {choices : List Value} :
    oneOf v choices = true ↔ ∃ choice ∈ choices, same v choice = true := by
  rw [oneOf, List.any_eq_true]

theorem str_of_getD {o : Option Value} {s : Text} (h : o.getD .null = .str s) :
    o = some (.str s) := by
  cases o with
  | none => cases h
  | some v => exact congrArg some h

theorem ruleExpr_some {v : Value} {expr expected : List Value} (h : ruleExpr v = some expr)
    (hsame : same (.arr expr) (.arr expected) = true) :
    ∃ handle, same v (item handle "rule" (ruleFields expected)) = true := by
  unfold ruleExpr at h
  split at h
  · cases h
  · next fields hfields =>
    split at h
    · next hrule =>
      obtain ⟨hkeys, howner⟩ := hrule
      split at h
      · next hexpr =>
        cases h
        obtain ⟨owner, howner, heach⟩ := same_arr.mp howner
        rw [Value.arr.injEq] at howner
        subst howner
        simp only [ruleOwner, text, List.map_cons, List.map_nil, List.forall₂_cons, same_str,
          List.forall₂_nil_right_iff, and_true] at heach
        obtain ⟨hfamily, htable, hchain⟩ := heach
        refine item_of_body hfields (same_of_members ?_ ?_)
        · intro p hp
          exact List.contains_iff_mem.mp (List.all_eq_true.mp hkeys p hp)
        · simp only [ruleFields, List.forall_mem_cons, List.not_mem_nil, false_implies,
            implies_true, and_true]
          exact ⟨⟨_, str_of_getD hfamily, same_str.mpr rfl⟩,
            ⟨_, str_of_getD htable, same_str.mpr rfl⟩,
            ⟨_, str_of_getD hchain, same_str.mpr rfl⟩, ⟨_, hexpr, hsame⟩⟩
      · cases h
    · cases h

theorem stringOf_mapM {vs : List Value} {texts : List Text} (h : vs.mapM stringOf = some texts) :
    vs = texts.map .str := by
  induction vs generalizing texts with
  | nil =>
    cases h
    rfl
  | cons v rest ih =>
    rw [List.mapM_cons] at h
    cases v with
    | str s =>
      obtain ⟨tail, htail, hrest⟩ := Option.bind_eq_some_iff.mp
        (show (rest.mapM stringOf).bind (fun tail => some (s :: tail)) = some texts from h)
      cases hrest
      rw [List.map_cons, ih htail]
    | _ => cases h

theorem perm_of_sortTexts {xs ys : List Text} (h : sortTexts xs = sortTexts ys) : xs.Perm ys := by
  have hxs : (sortTexts xs).Perm xs := List.perm_insertionSort _ xs
  have hys : (sortTexts ys).Perm ys := List.perm_insertionSort _ ys
  exact hxs.symm.trans (h ▸ hys)

theorem same_of_set {texts : List Text} :
    same (object [("set", .arr (texts.map .str))]) (pinsOf none texts) = true := by
  refine same_single (same_arr.mpr ⟨_, rfl, ?_⟩)
  rw [List.forall₂_map_left_iff, List.forall₂_map_right_iff]
  exact List.forall₂_same.mpr fun s _ => same_str.mpr rfl

/-- A match that pins members is a match of the same operator and left side over them. -/
theorem pinned_some {count : ℕ} {v op left : Value} {texts : List Text}
    (h : pinned count v = some (op, left, texts)) : ∃ right,
      (∀ op' left' right', same op (text op') = true → same left left' = true →
        same right right' = true → same v (matchOf op' left' right') = true) ∧
      (right = object [("set", .arr (texts.map .str))] ∨
        ∃ member, right = .str member ∧ texts = [member]) := by
  unfold pinned at h
  split at h
  · next pins hpins =>
    split at h
    · next hkeys =>
      split at h
      · next op₁ left₁ right hop hleft hright =>
        have hform : op₁ = op ∧ left₁ = left ∧ (right = object [("set", .arr (texts.map .str))] ∨
            ∃ member, right = .str member ∧ texts = [member]) := by
          split at h
          · next members hmembers =>
            obtain ⟨texts', htexts, hsame⟩ := Option.map_eq_some_iff.mp h
            cases hsame
            rw [onlyMember_some hmembers, stringOf_mapM htexts]
            exact ⟨rfl, rfl, .inl rfl⟩
          · cases h
          · split at h
            · split at h
              · cases h
                exact ⟨rfl, rfl, .inr ⟨_, rfl, rfl⟩⟩
              · cases h
            · cases h
        obtain ⟨rfl, rfl, hright'⟩ := hform
        refine ⟨right, fun op' left' right' hopSame hleftSame hrightSame => ?_, hright'⟩
        rw [onlyMember_some hpins]
        refine same_single (same_of_members ?_ ?_)
        · intro p hp
          exact List.contains_iff_mem.mp (List.all_eq_true.mp hkeys p hp)
        · simp only [List.forall_mem_cons, List.not_mem_nil, false_implies, implies_true, and_true]
          exact ⟨⟨_, hop, hopSame⟩, ⟨_, hleft, hleftSame⟩, ⟨_, hright, hrightSame⟩⟩
      · cases h
    · cases h
  · cases h

/-- The match of the targets is one of the two forms, over some order of the targets. -/
theorem pinsTargets_form {v : Value} (h : pinsTargets policy v = true) :
    ∃ pinIn pinBare members, same v (matchOf (operator pinIn) daddr
        (pinsOf pinBare members)) = true ∧
      (listedTargets pinBare members).Perm ((ipv4EgressTargets policy).map ipv4Text) := by
  rw [pinsTargets, Option.any_eq_true] at h
  obtain ⟨⟨op, left, texts⟩, hpinned, h⟩ := h
  simp only [Bool.and_eq_true, decide_eq_true_eq] at h
  obtain ⟨⟨⟨-, hsort⟩, hleft⟩, hop⟩ := h
  obtain ⟨right, hv, hright⟩ := pinned_some hpinned
  have hperm := perm_of_sortTexts hsort
  obtain ⟨pinIn, hop⟩ : ∃ pinIn, same op (text (operator pinIn)) = true := by
    obtain ⟨choice, hchoice, hsame⟩ := oneOf_iff.mp hop
    simp only [List.mem_cons, List.not_mem_nil, or_false] at hchoice
    rcases hchoice with rfl | rfl
    · exact ⟨false, hsame⟩
    · exact ⟨true, hsame⟩
  rcases hright with rfl | ⟨member, rfl, rfl⟩
  · exact ⟨pinIn, none, texts, hv _ _ _ hop hleft same_of_set, hperm⟩
  · exact ⟨pinIn, some member, [], hv _ _ _ hop hleft (same_str.mpr rfl), hperm⟩

theorem listed_ok {document : Value} {items : List Value} (h : listed document = .ok items) :
    ∃ metainfo, document =
        object [("nftables", .arr (object [("metainfo", .obj metainfo)] :: items))] ∧
      lookup metainfo (points "json_schema_version") = some (.int 1) := by
  unfold listed at h
  split at h
  · next first items' hdocument =>
    split at h
    · next metainfo hmetainfo =>
      split at h
      · next hversion =>
        cases h
        rw [Option.any_eq_true] at hversion
        obtain ⟨v, hv, hsame⟩ := hversion
        rw [same_int] at hsame
        refine ⟨metainfo, ?_, hsame ▸ hv⟩
        rw [onlyMember_some hdocument, onlyMember_some hmetainfo]
      · cases h
    · cases h
  · cases h
  · cases h

theorem lastBody_some {items : List Value} {kind : String} {fields : List (Text × Value)}
    (h : lastBody items kind = some fields) : ∃ v ∈ items, body v kind = some fields := by
  rw [lastBody, Option.bind_eq_some_iff] at h
  obtain ⟨v, hv, hbody⟩ := h
  exact ⟨v, (List.mem_filter.mp (List.mem_of_getLast? hv)).1, hbody⟩

theorem kind_of_body {v : Value} {kind kind' : String} {fields fields' : List (Text × Value)}
    (h : body v kind = some fields) (h' : body v kind' = some fields') :
    points kind = points kind' := by
  obtain ⟨all, rfl, -⟩ := body_some h
  obtain ⟨all', hsame, -⟩ := body_some h'
  simp only [object, List.map_cons, List.map_nil, Value.obj.injEq, List.cons.injEq,
    Prod.mk.injEq] at hsame
  exact hsame.1.1

theorem sets_form {first second : Value} {set map : List (Text × Value)}
    (hset : lastBody [first, second] "set" = some set)
    (hmap : lastBody [first, second] "map" = some map) :
    (body first "set" = some set ∧ body second "map" = some map) ∨
      (body first "map" = some map ∧ body second "set" = some set) := by
  obtain ⟨v, hv, hsetBody⟩ := lastBody_some hset
  obtain ⟨w, hw, hmapBody⟩ := lastBody_some hmap
  have hne : v ≠ w := by
    rintro rfl
    exact absurd (kind_of_body hsetBody hmapBody) (by decide)
  simp only [List.mem_cons, List.not_mem_nil, or_false] at hv hw
  rcases hv with rfl | rfl
  · rcases hw with rfl | rfl
    · exact absurd rfl hne
    · exact .inl ⟨hsetBody, hmapBody⟩
  · rcases hw with rfl | rfl
    · exact .inr ⟨hmapBody, hsetBody⟩
    · exact absurd rfl hne

theorem admitMatches_form {admits : List Value} (h : admitMatches policy admits = true) :
    ∃ admitIn pinIn pinBare members,
      same (.arr admits) (.arr [admitLookup (operator admitIn) policy.slotHopDst,
        matchOf (operator pinIn) daddr (pinsOf pinBare members),
        matchOf "==" dport (.int egressPort), acceptVerdict]) = true ∧
      (listedTargets pinBare members).Perm ((ipv4EgressTargets policy).map ipv4Text) := by
  unfold admitMatches at h
  split at h
  · next key pins port verdict =>
    simp only [Bool.and_eq_true] at h
    obtain ⟨⟨⟨hverdict, hkey⟩, hpins⟩, hport⟩ := h
    obtain ⟨pinIn, pinBare, members, hpins, hperm⟩ := pinsTargets_form policy hpins
    obtain ⟨admitIn, hkey⟩ : ∃ admitIn,
        same key (admitLookup (operator admitIn) policy.slotHopDst) = true := by
      obtain ⟨choice, hchoice, hsame⟩ := oneOf_iff.mp hkey
      simp only [List.mem_cons, List.not_mem_nil, or_false] at hchoice
      rcases hchoice with rfl | rfl
      · exact ⟨false, hsame⟩
      · exact ⟨true, hsame⟩
    refine ⟨admitIn, pinIn, pinBare, members, same_arr.mpr ⟨_, rfl, ?_⟩, hperm⟩
    exact .cons hkey (.cons hpins (.cons hport (.cons hverdict .nil)))
  · cases h

theorem checkRules_form {rules : List (List Value)} (h : checkRules policy rules = .ok ())
    (hlength : rules.length = if policy.controlOnly then 3 else 4) :
    ∃ forms : RuleForms,
      List.Forall₂ (fun r expr => same (.arr r) (.arr expr) = true) rules (forms.rules policy) ∧
      (policy.controlOnly = false → (listedTargets forms.pinBare forms.members).Perm
        ((ipv4EgressTargets policy).map ipv4Text)) := by
  unfold checkRules at h
  split at h
  · next reset lookup control admits =>
    simp only [bind_ok, require_ok, exists_const] at h
    obtain ⟨hreset, hlookup, hcontrol, hadmits⟩ := h
    obtain ⟨resetText, hreset⟩ : ∃ resetText : Bool, same (.arr reset)
        (.arr (resetExpr (if resetText then text "0x00000000" else .int 0))) = true := by
      obtain ⟨choice, hchoice, hsame⟩ := oneOf_iff.mp hreset
      simp only [List.mem_cons, List.not_mem_nil, or_false] at hchoice
      rcases hchoice with rfl | rfl
      · exact ⟨false, hsame⟩
      · exact ⟨true, hsame⟩
    obtain ⟨controlIn, hcontrol⟩ : ∃ controlIn, same (.arr control)
        (.arr (controlExpr (operator controlIn) policy.slotHopSrc policy.slotHopDst)) = true := by
      obtain ⟨choice, hchoice, hsame⟩ := oneOf_iff.mp hcontrol
      simp only [List.mem_cons, List.not_mem_nil, or_false] at hchoice
      rcases hchoice with rfl | rfl
      · exact ⟨false, hsame⟩
      · exact ⟨true, hsame⟩
    by_cases honly : policy.controlOnly = true
    · rw [if_pos honly] at hlength
      obtain rfl : admits = [] := by simpa using hlength
      refine ⟨{ resetText := resetText, controlIn := controlIn }, ?_, fun h => by simp [honly] at h⟩
      rw [RuleForms.rules, if_pos honly]
      exact .cons hreset (.cons hlookup (.cons hcontrol .nil))
    · rw [if_neg honly] at hlength
      obtain ⟨admits, rfl⟩ : ∃ a, admits = [a] := by
        rw [← List.length_eq_one_iff]
        simpa using hlength
      simp only [require_ok] at hadmits
      obtain ⟨admitIn, pinIn, pinBare, members, hsame, hperm⟩ :=
        admitMatches_form policy (hadmits.resolve_left honly)
      refine ⟨⟨resetText, controlIn, admitIn, pinIn, pinBare, members⟩, ?_, fun _ => hperm⟩
      rw [RuleForms.rules, if_neg honly]
      exact .cons hreset (.cons hlookup (.cons hcontrol (.cons hsame .nil)))
  · cases h

theorem mapM_length {α β : Type} {f : α → Option β} {xs : List α} {ys : List β}
    (h : xs.mapM f = some ys) : ys.length = xs.length := by
  induction xs generalizing ys with
  | nil =>
    cases h
    rfl
  | cons x rest ih =>
    rw [List.mapM_cons] at h
    obtain ⟨y, -, h⟩ := Option.bind_eq_some_iff.mp h
    obtain ⟨tail, htail, h⟩ := Option.bind_eq_some_iff.mp h
    cases h
    rw [List.length_cons, List.length_cons, ih htail]

theorem rules_form {rules : List Value} {exprs forms : List (List Value)}
    (h : rules.mapM ruleExpr = some exprs)
    (hforms : List.Forall₂ (fun r expr => same (.arr r) (.arr expr) = true) exprs forms) :
    ∃ handle : ℕ → Option ℕ, List.Forall₂ (fun v e => same v e = true) rules
      (forms.mapIdx fun i expr => item (handle i) "rule" (ruleFields expr)) := by
  induction rules generalizing exprs forms with
  | nil =>
    cases h
    cases hforms
    exact ⟨fun _ => none, .nil⟩
  | cons v rest ih =>
    rw [List.mapM_cons] at h
    obtain ⟨expr, hexpr, h⟩ := Option.bind_eq_some_iff.mp h
    obtain ⟨tail, htail, h⟩ := Option.bind_eq_some_iff.mp h
    cases h
    cases hforms with
    | cons hsame hrest =>
      obtain ⟨handle, hhandle⟩ := ih htail hrest
      obtain ⟨first, hfirst⟩ := ruleExpr_some hexpr hsame
      refine ⟨fun i => if i = 0 then first else handle (i - 1), ?_⟩
      rw [List.mapIdx_cons]
      exact .cons hfirst hhandle

/-- The handles of a table, its two containers and its chain, and then those of the rules. -/
def handlesOf (h₀ h₁ h₂ h₃ : Option ℕ) (rules : ℕ → Option ℕ) : ℕ → Option ℕ
  | 0 => h₀
  | 1 => h₁
  | 2 => h₂
  | 3 => h₃
  | i + 4 => rules i

/-- An accepted document is a listing of the table of the input, item by item. -/
theorem readback_items {document : Value} (h : readback policy document = .ok ()) :
    ∃ (e : Encoding) (items : List Value), e.Fits policy ∧
      document = object [("nftables", .arr (object [("metainfo", .obj e.metainfo)] :: items))] ∧
      List.Forall₂ (fun v e => same v e = true) items (e.items policy) := by
  simp only [readback, bind_ok, require_ok, exists_const] at h
  obtain ⟨-, items, hlisted, hlength, h⟩ := h
  obtain ⟨metainfo, hdocument, hversion⟩ := listed_ok hlisted
  split at h
  · next table first second chain rules =>
    simp only [bind_ok, require_ok, exists_const] at h
    obtain ⟨htable, hset, hmap, hchain, h⟩ := h
    rw [Option.any_eq_true] at hset hmap
    obtain ⟨set, hset, hsetSame⟩ := hset
    obtain ⟨map, hmap, hmapSame⟩ := hmap
    obtain ⟨flagsBare, hflags⟩ : ∃ flagsBare : Bool, same (.obj set) (object (preparedFields
        (if flagsBare then text "timeout" else .arr [text "timeout"]))) = true := by
      obtain ⟨choice, hchoice, hsame⟩ := oneOf_iff.mp hsetSame
      simp only [List.mem_cons, List.not_mem_nil, or_false] at hchoice
      rcases hchoice with rfl | rfl
      · exact ⟨false, hsame⟩
      · exact ⟨true, hsame⟩
    obtain ⟨h₀, htable⟩ := item_of_isBody htable
    obtain ⟨h₃, hchain⟩ := item_of_isBody hchain
    split at h
    · next exprs hexprs =>
      have hcount : exprs.length = if policy.controlOnly then 3 else 4 := by
        rw [mapM_length hexprs]
        simp only [List.length_cons] at hlength
        split at hlength <;> simp_all
      obtain ⟨forms, hforms, hperm⟩ := checkRules_form policy h hcount
      obtain ⟨handle, hrules⟩ := rules_form hexprs hforms
      obtain ⟨mapFirst, h₁, h₂, hsets⟩ : ∃ (mapFirst : Bool) (h₁ h₂ : Option ℕ),
          List.Forall₂ (fun v e => same v e = true) [first, second]
            (setItems flagsBare mapFirst h₁ h₂) := by
        rcases sets_form hset hmap with ⟨hfirst, hsecond⟩ | ⟨hfirst, hsecond⟩
        · obtain ⟨h₁, hfirst⟩ := item_of_body hfirst hflags
          obtain ⟨h₂, hsecond⟩ := item_of_body hsecond hmapSame
          exact ⟨false, h₁, h₂, .cons hfirst (.cons hsecond .nil)⟩
        · obtain ⟨h₁, hfirst⟩ := item_of_body hfirst hmapSame
          obtain ⟨h₂, hsecond⟩ := item_of_body hsecond hflags
          exact ⟨true, h₁, h₂, .cons hfirst (.cons hsecond .nil)⟩
      refine ⟨{ forms with
        metainfo := metainfo
        handle := handlesOf h₀ h₁ h₂ h₃ handle
        flagsBare := flagsBare
        mapFirst := mapFirst }, _, ⟨hversion, hperm⟩, hdocument, ?_⟩
      exact .cons htable (List.rel_append hsets (.cons hchain hrules))
    · cases h
  · cases h

/-! ### What a listing tells of its input -/

theorem items_length (e : Encoding) :
    (e.items policy).length = if policy.controlOnly then 7 else 8 := by
  rw [Encoding.items, setItems, RuleForms.rules]
  by_cases honly : policy.controlOnly = true
  · cases e.mapFirst <;> simp [honly]
  · cases e.mapFirst <;> simp [honly]

theorem items_control (e : Encoding) : ∃ handle, (e.items policy)[6]? = some (item handle "rule"
    (ruleFields (controlExpr (operator e.controlIn) policy.slotHopSrc policy.slotHopDst))) := by
  refine ⟨e.handle 6, ?_⟩
  rw [Encoding.items, setItems, RuleForms.rules]
  cases e.mapFirst <;> cases policy.controlOnly <;> rfl

theorem items_admitted (e : Encoding) (honly : policy.controlOnly = false) :
    ∃ handle, (e.items policy)[7]? =
    some (item handle "rule" (ruleFields (e.admitExpr policy))) := by
  refine ⟨e.handle 7, ?_⟩
  rw [Encoding.items, setItems, RuleForms.rules, honly]
  cases e.mapFirst <;> rfl

/-- To the right side of the match in the `i`-th expression of a rule. -/
def rightOf (i : ℕ) : List PathStep :=
  [.key (points "rule"), .key (points "expr"), .index i, .key (points "match"),
    .key (points "right")]

theorem points_injective : Function.Injective points := by
  intro s t h
  exact String.toList_injective (List.map_injective_iff.mpr (fun _ _ h => Char.toNat_inj.mp h) h)

theorem part_object {fields : List (String × Value)} {name : String} :
    part (object fields) (.key (points name)) =
      (fields.find? fun p => p.1 = name).map Prod.snd := by
  have hname : ((fun p : Text × Value => decide (p.1 = points name)) ∘
      fun p : String × Value => (points p.1, p.2)) = fun p => decide (p.1 = name) := by
    funext p
    simp [points_injective.eq_iff]
  rw [object, part, lookup, List.find?_map, hname, Option.map_map]
  rfl

theorem at_rule {handle : Option ℕ} {expr : List Value} {rest : List PathStep} :
    at? (item handle "rule" (ruleFields expr))
      (.key (points "rule") :: .key (points "expr") :: rest) =
      at? (.arr expr) rest := by
  simp [at?, item, part_object, ruleFields]

theorem at_match {op : String} {left right : Value} :
    at? (matchOf op left right) [.key (points "match"), .key (points "right")] = some right := by
  simp [at?, matchOf, part_object]

theorem right_agrees {v : Value} {handle handle' : Option ℕ} {expr expr' : List Value} {i : ℕ}
    {op op' : String} {left left' right right' : Value}
    (h : same v (item handle "rule" (ruleFields expr)) = true)
    (h' : same v (item handle' "rule" (ruleFields expr')) = true)
    (hi : expr[i]? = some (matchOf op left right))
      (hi' : expr'[i]? = some (matchOf op' left' right')) :
    ∃ w, same w right = true ∧ same w right' = true := by
  have hpath : ∀ {handle : Option ℕ} {expr : List Value} {op : String} {left right : Value},
      expr[i]? = some (matchOf op left right) →
        at? (item handle "rule" (ruleFields expr)) (rightOf i) = some right := by
    intro handle expr op left right hi
    rw [rightOf, at_rule, at?, part, hi]
    exact at_match
  obtain ⟨w, hw, hsame⟩ := same_at h (hpath hi)
  obtain ⟨w', hw', hsame'⟩ := same_at h' (hpath hi')
  rw [hw, Option.some.injEq] at hw'
  exact ⟨w, hsame, hw' ▸ hsame'⟩

theorem listedTargets_eq {w : Value} {pinBare pinBare' : Option Text} {members members' : List Text}
    (h : same w (pinsOf pinBare members) = true) (h' : same w (pinsOf pinBare' members') = true) :
    listedTargets pinBare members = listedTargets pinBare' members' := by
  have hset : ∀ {texts : List Text} {s : Text}, same w (pinsOf none texts) = true →
      same w (.str s) = true → False := by
    intro texts s hobj hstr
    rw [same_str.mp hstr] at hobj
    simp [pinsOf, object, same] at hobj
  cases pinBare with
  | some member =>
    cases pinBare' with
    | some member' =>
      rw [pinsOf, same_str.mp h] at h'
      simpa [pinsOf, listedTargets] using h'
    | none => exact (hset h' h).elim
  | none =>
    cases pinBare' with
    | some member' => exact (hset h h').elim
    | none =>
      have hmembers : ∀ {texts : List Text}, same w (pinsOf none texts) = true →
          at? w [.key (points "set")] = some (.arr (texts.map .str)) := by
        intro texts h
        obtain ⟨v, hv, hsame⟩ := @same_at [.key (points "set")] _ _ (.arr (texts.map .str)) h
          (by simp [at?, pinsOf, part_object])
        rw [hv, same_texts.mp hsame]
      have hsame := (hmembers h).symm.trans (hmembers h')
      simp only [Option.some.injEq, Value.arr.injEq] at hsame
      exact List.map_injective_iff.mpr (fun _ _ h => by simpa using h) hsame

theorem targets_nil {policy : H2PolicyInput} {document : Value}
    (h : readback policy document = .ok ()) (honly : policy.controlOnly = true) :
    ipv4EgressTargets policy = [] := by
  simp only [readback, bind_ok, require_ok, exists_const] at h
  rw [honly] at h
  exact List.isEmpty_iff.mp h.1

theorem mem_of_texts {P Q : H2PolicyInput} {n : ℕ}
    (h : ((ipv4EgressTargets P).map ipv4Text).Perm ((ipv4EgressTargets Q).map ipv4Text))
    (hn : n ∈ ipv4EgressTargets P) : n ∈ ipv4EgressTargets Q := by
  obtain ⟨m, hm, hsame⟩ := List.mem_map.mp (h.mem_iff.mp (List.mem_map_of_mem hn))
  rwa [ipv4Text_inj (target_lt P hn) (target_lt Q hm) hsame.symm]

theorem readback_agrees {P Q : H2PolicyInput} {document : Value}
    (hP : readbackMatches P document = true) (hQ : readbackMatches Q document = true) :
    P.slotHopSrc = Q.slotHopSrc ∧ P.slotHopDst = Q.slotHopDst ∧ P.controlOnly = Q.controlOnly ∧
      ∀ n, n ∈ ipv4EgressTargets P ↔ n ∈ ipv4EgressTargets Q := by
  obtain ⟨⟨⟩, hokP⟩ := (accepts_iff _).mp hP
  obtain ⟨⟨⟩, hokQ⟩ := (accepts_iff _).mp hQ
  obtain ⟨e, items, hfits, hdocument, hitems⟩ := readback_items P hokP
  obtain ⟨e', items', hfits', hdocument', hitems'⟩ := readback_items Q hokQ
  have hsame : items = items' := by
    rw [hdocument] at hdocument'
    simp only [object, List.map_cons, List.map_nil, Value.obj.injEq, Value.arr.injEq,
      List.cons.injEq, Prod.mk.injEq] at hdocument'
    exact hdocument'.1.2.2
  subst hsame
  have hlength := hitems.length_eq.symm.trans hitems'.length_eq
  rw [items_length, items_length] at hlength
  have honly : P.controlOnly = Q.controlOnly := by
    cases hcP : P.controlOnly <;> cases hcQ : Q.controlOnly <;> simp_all
  have hitem : ∀ {i : ℕ} {a b : Value}, (e.items P)[i]? = some a → (e'.items Q)[i]? = some b →
      ∃ v, same v a = true ∧ same v b = true := by
    intro i a b ha hb
    obtain ⟨hi, rfl⟩ := List.getElem?_eq_some_iff.mp ha
    obtain ⟨hi', rfl⟩ := List.getElem?_eq_some_iff.mp hb
    have hitemIn : i < items.length := hitems.length_eq ▸ hi
    exact ⟨items[i], hitems.get hitemIn hi, hitems'.get hitemIn hi'⟩
  obtain ⟨h₆, hcontrol⟩ := items_control P e
  obtain ⟨h₆', hcontrol'⟩ := items_control Q e'
  obtain ⟨v, hv, hv'⟩ := hitem hcontrol hcontrol'
  have hsrc : P.slotHopSrc = Q.slotHopSrc := by
    obtain ⟨w, hw, hw'⟩ := right_agrees (i := 0) hv hv' rfl rfl
    rw [same_str.mp hw] at hw'
    simpa using hw'
  have hdst : P.slotHopDst = Q.slotHopDst := by
    obtain ⟨w, hw, hw'⟩ := right_agrees (i := 1) hv hv' rfl rfl
    rw [same_str.mp hw] at hw'
    simpa using hw'
  refine ⟨hsrc, hdst, honly, ?_⟩
  cases hcP : P.controlOnly with
  | true =>
    rw [targets_nil hokP hcP, targets_nil hokQ (honly ▸ hcP)]
    exact fun n => Iff.rfl
  | false =>
    obtain ⟨h₇, hadmits⟩ := items_admitted P e hcP
    obtain ⟨h₇', hadmits'⟩ := items_admitted Q e' (honly ▸ hcP)
    obtain ⟨v, hv, hv'⟩ := hitem hadmits hadmits'
    obtain ⟨w, hw, hw'⟩ := right_agrees (i := 1) hv hv' rfl rfl
    have hlisted := listedTargets_eq hw hw'
    have hperm : ((ipv4EgressTargets P).map ipv4Text).Perm ((ipv4EgressTargets Q).map ipv4Text) :=
      (hfits.targets hcP).symm.trans (hlisted ▸ hfits'.targets (honly ▸ hcP))
    exact fun n => ⟨mem_of_texts hperm, mem_of_texts hperm.symm⟩

/-! ### The whole document -/

theorem keyed_object {fields : List (String × Value)} :
    Keyed (object fields) ↔ (fields.map Prod.fst).Nodup ∧ ∀ p ∈ fields, Keyed p.2 := by
  have hkeys : (fields.map fun p => (points p.1, p.2)).map Prod.fst =
      (fields.map Prod.fst).map points := by
    simp
  rw [object, Keyed, keyedFields_iff, hkeys, List.nodup_map_iff points_injective,
    List.forall_mem_map]

theorem keyed_arr {items : List Value} : Keyed (.arr items) ↔ ∀ v ∈ items, Keyed v := by
  rw [Keyed, keyedItems_iff]

theorem keyed_str {s : Text} : Keyed (.str s) := trivial

theorem keyed_item {handle : Option ℕ} {kind : String} {fields : List (String × Value)}
    (hkeys : (fields.map Prod.fst).Nodup) (hhandle : "handle" ∉ fields.map Prod.fst)
    (h : ∀ p ∈ fields, Keyed p.2) : Keyed (item handle kind fields) := by
  refine keyed_object.mpr ⟨by simp, fun p hp => ?_⟩
  rw [List.mem_singleton] at hp
  subst hp
  refine keyed_object.mpr ⟨?_, ?_⟩
  · rw [List.map_append, List.nodup_append']
    refine ⟨hkeys, by cases handle <;> simp, ?_⟩
    cases handle with
    | none => simp
    | some n => simpa using hhandle
  · intro p hp
    rw [List.mem_append] at hp
    rcases hp with hp | hp
    · exact h p hp
    · cases handle with
      | none => cases hp
      | some n =>
        obtain rfl : p = ("handle", .int n) := by simpa using hp
        trivial

theorem keyed_match {op : String} {left right : Value} (hleft : Keyed left) (hright : Keyed right) :
    Keyed (matchOf op left right) := by
  simp [matchOf, keyed_object, text, keyed_str, hleft, hright]

theorem keyed_rule {handle : Option ℕ} {expr : List Value} (h : ∀ v ∈ expr, Keyed v) :
    Keyed (item handle "rule" (ruleFields expr)) := by
  refine keyed_item (by simp [ruleFields]) (by simp [ruleFields]) ?_
  simpa [ruleFields, text, keyed_str, keyed_arr] using h

theorem keyed_payload {protocol field : String} : Keyed (payload protocol field) := by
  simp [payload, keyed_object, text, keyed_str]

theorem keyed_int {n : ℤ} : Keyed (.int n) := trivial

theorem keyed_gateway {dst : Text} : Keyed (gateway dst) := by
  simp [gateway, keyed_object, keyed_arr, keyed_str, keyed_int, daddr, keyed_payload]

theorem keyed_metaMark : Keyed metaMark := by
  simp [metaMark, keyed_object, text, keyed_str]

theorem keyed_pins {pinBare : Option Text} {members : List Text} :
    Keyed (pinsOf pinBare members) := by
  cases pinBare with
  | some member => trivial
  | none => simp [pinsOf, keyed_object, keyed_arr, keyed_str]

theorem keyed_rules (forms : RuleForms) : ∀ expr ∈ forms.rules policy, ∀ v ∈ expr, Keyed v := by
  have hreset : ∀ v ∈ resetExpr (if forms.resetText then text "0x00000000" else .int 0),
      Keyed v := by
    cases forms.resetText <;> simp [resetExpr, keyed_object, keyed_metaMark, text, Keyed]
  have hlookup : ∀ v ∈ lookupExpr policy.slotHopDst, Keyed v := by
    simp [lookupExpr, keyed_object, keyed_arr, keyed_metaMark, saddr, keyed_payload,
      keyed_gateway, setReference, keyed_str]
  have hverdict : Keyed acceptVerdict := by
    simp [acceptVerdict, keyed_object, Keyed]
  have hport : Keyed (matchOf "==" dport (.int egressPort)) := keyed_match keyed_payload trivial
  have hcontrol : ∀ v ∈ controlExpr (operator forms.controlIn) policy.slotHopSrc policy.slotHopDst,
      Keyed v := by
    simp only [controlExpr, List.forall_mem_cons]
    exact ⟨keyed_match keyed_payload trivial, keyed_match keyed_payload trivial, hport, hverdict,
      by simp⟩
  have hadmits : ∀ v ∈ forms.admitExpr policy, Keyed v := by
    have hkey : Keyed (object [("concat", .arr [saddr, gateway policy.slotHopDst, metaMark])]) := by
      simp [keyed_object, keyed_arr, saddr, keyed_payload, keyed_gateway, keyed_metaMark]
    simp only [RuleForms.admitExpr, List.forall_mem_cons]
    exact ⟨keyed_match hkey trivial, keyed_match keyed_payload keyed_pins, hport, hverdict, by simp⟩
  intro expr hexpr
  rw [RuleForms.rules, List.mem_append] at hexpr
  rcases hexpr with hexpr | hexpr
  · simp only [List.mem_cons, List.not_mem_nil, or_false] at hexpr
    rcases hexpr with rfl | rfl | rfl
    · exact hreset
    · exact hlookup
    · exact hcontrol
  · split at hexpr
    · cases hexpr
    · rw [List.mem_singleton] at hexpr
      exact hexpr ▸ hadmits

theorem keyed_items (e : Encoding) : ∀ v ∈ e.items policy, Keyed v := by
  have htable : Keyed (item (e.handle 0) "table" tableFields) :=
    keyed_item (by simp [tableFields]) (by simp [tableFields]) (by simp [tableFields, text, Keyed])
  have hchain : Keyed (item (e.handle 3) "chain" chainFields) :=
    keyed_item (by simp [chainFields]) (by simp [chainFields]) (by simp [chainFields, text, Keyed])
  have hprepared : ∀ handle (flagsBare : Bool), Keyed (item handle "set" (preparedFields
      (if flagsBare then text "timeout" else .arr [text "timeout"]))) := by
    intro handle flagsBare
    refine keyed_item (by simp [preparedFields]) (by simp [preparedFields]) ?_
    cases flagsBare <;> simp [preparedFields, text, Keyed, KeyedItems]
  have hactivated : ∀ handle, Keyed (item handle "map" activatedFields) := fun handle =>
    keyed_item (by simp [activatedFields]) (by simp [activatedFields])
      (by simp [activatedFields, text, Keyed, KeyedItems])
  intro v hv
  rw [Encoding.items, List.mem_cons, List.mem_append, List.mem_cons] at hv
  rcases hv with rfl | hv | rfl | hv
  · exact htable
  · rw [setItems] at hv
    split at hv
    · simp only [List.mem_cons, List.not_mem_nil, or_false] at hv
      rcases hv with rfl | rfl
      · exact hactivated _
      · exact hprepared _ _
    · simp only [List.mem_cons, List.not_mem_nil, or_false] at hv
      rcases hv with rfl | rfl
      · exact hprepared _ _
      · exact hactivated _
  · exact hchain
  · obtain ⟨i, hi, rfl⟩ := List.mem_mapIdx.mp hv
    exact keyed_rule (keyed_rules policy e.toRuleForms _ (List.getElem_mem hi))

theorem keyed_document {e : Encoding} (h : Keyed (.obj e.metainfo)) :
    Keyed (e.document policy) := by
  refine keyed_object.mpr ⟨by simp, ?_⟩
  rw [List.forall_mem_singleton, keyed_arr, List.forall_mem_cons, keyed_object]
  exact ⟨⟨by simp, by simpa using h⟩, keyed_items policy e⟩

/-- An accepted document is the listing of the input's table in some encoding, but for the order of
keys. -/
theorem readback_listing {document : Value} (hkeyed : Keyed document)
    (h : readbackMatches policy document = true) :
    ∃ e : Encoding, e.Fits policy ∧ arranged document = arranged (e.document policy) := by
  obtain ⟨⟨⟩, hok⟩ := (accepts_iff _).mp h
  obtain ⟨e, items, hfits, rfl, hitems⟩ := readback_items policy hok
  refine ⟨e, hfits, ?_⟩
  have hkeyedItems : Keyed (.arr items) := by
    have hall := (keyed_object.mp hkeyed).2 _ List.mem_cons_self
    exact keyed_arr.mpr fun v hv => keyed_arr.mp hall v (List.mem_cons_of_mem _ hv)
  have harranged := same_arranged hkeyedItems (keyed_arr.mpr (keyed_items policy e))
    (same_arr.mpr ⟨items, rfl, hitems⟩)
  rw [arranged, arranged, Value.arr.injEq] at harranged
  simp only [Encoding.document, object, List.map_cons, List.map_nil, arranged, arrangedFields,
    arrangedItems, harranged]

/-- The oracle is exact: an accepted document is a listing of the one table, the two empty sets, the
chain that drops and the rules in order, each item with no key but a handle beside its own; and one
document is accepted for inputs of the same addresses and targets only. -/
theorem readback_exact (document : Value) :
    (∀ policy, Keyed document → readbackMatches policy document = true →
      ∃ e : Encoding, e.Fits policy ∧ arranged document = arranged (e.document policy)) ∧
    ∀ P Q, readbackMatches P document = true → readbackMatches Q document = true →
      P.slotHopSrc = Q.slotHopSrc ∧ P.slotHopDst = Q.slotHopDst ∧ P.controlOnly = Q.controlOnly ∧
        ∀ n, n ∈ ipv4EgressTargets P ↔ n ∈ ipv4EgressTargets Q :=
  ⟨fun policy hkeyed h => readback_listing policy hkeyed h, fun _ _ hP hQ => readback_agrees hP hQ⟩

/-! ### The metainfo is open -/

namespace Sample

def control : PolicyFields where
  generationId := List.replicate 32 zero
  namespaceIdentity := (1, 2)
  slotId := points "s"
  slotHopSrc := points "1.1.1.1"
  slotHopDst := points "1.1.1.2"
  bootstrapFence := List.replicate 32 zero
  egressHostname := points "h"
  egressPort := 443
  observedPublicAddresses := []
  controlOnly := true

theorem control_checked : control.check = .ok () := by
  decide +kernel

def controlPolicy : H2PolicyInput := ⟨control, control_checked⟩

example : ipv4EgressTargets controlPolicy = [] := by decide +kernel

/-- A listing whose metainfo has one more key. -/
def listing : Encoding where
  metainfo := [(points "json_schema_version", .int 1), (points "x", .int 0)]
  handle _ := none
  flagsBare := true
  mapFirst := false

theorem listing_accepted :
    readbackMatches controlPolicy (listing.document controlPolicy) = true := by
  decide +kernel

theorem listing_keyed : Keyed (listing.document controlPolicy) :=
  keyed_document controlPolicy ⟨by decide, by simp [listing, KeyedFields, keyed_int]⟩

def pinned : PolicyFields where
  generationId := List.replicate 32 zero
  namespaceIdentity := (1, 2)
  slotId := points "s"
  slotHopSrc := points "10.0.0.1"
  slotHopDst := points "10.0.0.2"
  bootstrapFence := List.replicate 32 zero
  egressHostname := points "h"
  egressPort := 443
  observedPublicAddresses := [.v4 0x01010101, .v4 0x08080808]

/-- The next generation of the slot, of another name that has an address of version 6 too. -/
def repinned : PolicyFields :=
  { pinned with
    generationId := List.replicate 31 zero ++ points "1"
    egressHostname := points "g"
    observedPublicAddresses := [.v4 0x01010101, .v4 0x08080808, .v6 1] }

theorem pinned_checked : pinned.check = .ok () := by
  decide +kernel

theorem repinned_checked : repinned.check = .ok () := by
  decide +kernel

def firstPolicy : H2PolicyInput := ⟨pinned, pinned_checked⟩
def secondPolicy : H2PolicyInput := ⟨repinned, repinned_checked⟩

example : ipv4EgressTargets firstPolicy = ipv4EgressTargets secondPolicy := by decide +kernel

/-- A listing with handles, the map first and the targets in another order. -/
def relisting : Encoding where
  metainfo := [(points "version", .str (points "1.0.6")), (points "json_schema_version", .int 1)]
  handle i := some (i + 4)
  flagsBare := true
  mapFirst := true
  pinIn := true
  members := [points "8.8.8.8", points "1.1.1.1"]

theorem relisting_accepted :
    readbackMatches firstPolicy (relisting.document firstPolicy) = true ∧
      readbackMatches secondPolicy (relisting.document firstPolicy) = true := by
  constructor <;> decide +kernel

theorem relisting_keyed : Keyed (relisting.document firstPolicy) :=
  keyed_document firstPolicy ⟨by decide, by
    simp [relisting, KeyedFields, keyed_int, keyed_str]⟩

end Sample

open Sample in
/-- An accepted document may have another key in its metainfo. -/
theorem metainfo_open : Keyed (listing.document controlPolicy) ∧
    readbackMatches controlPolicy (listing.document controlPolicy) = true ∧
    at? (listing.document controlPolicy) [.key (points "nftables"), .index 0,
      .key (points "metainfo"), .key (points "x")] = some (.int 0) := by
  refine ⟨listing_keyed, listing_accepted, ?_⟩
  have hmember : part (.obj listing.metainfo) (.key (points "x")) = some (.int 0) :=
    lookup_of_mem (by decide) (by simp [listing])
  have hfirst : ∀ (v : Value) (rest : List Value), part (.arr (v :: rest)) (.index 0) = some v :=
    fun _ _ => rfl
  simp [Encoding.document, at?, part_object, hfirst, hmember]

open Sample in
/-- One listing is accepted for two generations, and for none whose targets differ. -/
theorem readback_exact_sample :
    firstPolicy.generationId ≠ secondPolicy.generationId ∧
    (∃ e : Encoding, e.Fits secondPolicy ∧
      arranged (relisting.document firstPolicy) = arranged (e.document secondPolicy)) ∧
    firstPolicy.slotHopSrc = secondPolicy.slotHopSrc ∧
    (∀ n, n ∈ ipv4EgressTargets firstPolicy ↔ n ∈ ipv4EgressTargets secondPolicy) ∧
    readbackMatches controlPolicy (relisting.document firstPolicy) ≠ true := by
  obtain ⟨hlisting, hagrees⟩ := readback_exact (relisting.document firstPolicy)
  obtain ⟨hfirst, hsecond⟩ := relisting_accepted
  obtain ⟨hsrc, -, -, htargets⟩ := hagrees _ _ hfirst hsecond
  refine ⟨by decide, hlisting _ relisting_keyed hsecond, hsrc, htargets, fun hcontrol => ?_⟩
  exact absurd (hagrees _ _ hfirst hcontrol).1 (by decide)

end Heel.HostPolicy
