import Heel.Contracts.NormalForm

/-! `parse_json` reads back what `canonical_bytes` writes. -/
namespace Heel
open Lib Lib.Checks
namespace Json
variable {P : Platform}

theorem skip_cons {c : Char} (h : c ≠ ' ' ∧ c ≠ '\t' ∧ c ≠ '\n' ∧ c ≠ '\r') (r : List Char) :
    skip (c :: r) = c :: r := by
  obtain ⟨h1, h2, h3, h4⟩ := h
  rw [skip, List.dropWhile_cons_of_neg]
  simp [h1, h2, h3, h4]

theorem skip_ends {r : List Char} (h : Ends r) : skip r = r := by
  cases r with
  | nil => rfl
  | cons c r =>
    refine skip_cons ?_ r
    rcases h c rfl with rfl | rfl | rfl <;> decide

theorem scanChar_escapeChar {c : Char} (hc : isControl c = false) (r : List Char) :
    scanChar (escapeChar c ++ r) = .ok (c, r) := by
  have hprintable : ¬ c.toNat < 0x20 := by
    simp only [isControl, Bool.or_eq_false_iff, decide_eq_false_iff_not] at hc
    exact hc.1
  by_cases hquote : c = '"'
  · subst hquote
    rfl
  · by_cases hslash : c = '\\'
    · subst hslash
      rfl
    · have hne : ∀ d : Char, d.toNat < 0x20 → c ≠ d := by
        rintro d hd rfl
        exact hprintable hd
      have hplain : escapeChar c = [c] := by
        unfold escapeChar
        rw [if_neg hquote, if_neg hslash, if_neg (hne _ (by decide)), if_neg (hne _ (by decide)),
          if_neg (hne _ (by decide)), if_neg, if_neg, if_neg hprintable] <;> omega
      rw [hplain, List.singleton_append]
      unfold scanChar
      dsimp only
      rw [if_neg hslash, if_neg hprintable]

theorem scanText_quote {cs : List Char} (hcs : cs.all (fun c => !isControl c) = true)
    (r : List Char) {n : Nat} (hn : cs.length < n) :
    scanText n (cs.flatMap escapeChar ++ '"' :: r) = .ok (cs, r) := by
  induction cs generalizing n with
  | nil =>
    obtain ⟨m, rfl⟩ := Nat.exists_eq_add_of_lt hn
    rfl
  | cons c cs ih =>
    obtain ⟨m, rfl⟩ : ∃ m, n = m + 1 := ⟨n - 1, by simp at hn; omega⟩
    simp only [List.all_cons, Bool.and_eq_true, Bool.not_eq_true'] at hcs
    obtain ⟨hhead, hne⟩ := escapeChar_head c
    obtain ⟨d, rest, hd⟩ := List.exists_cons_of_ne_nil hne
    have hquote : d ≠ '"' := by
      intro h
      rw [hd, h] at hhead
      exact hhead rfl
    have hchar := scanChar_escapeChar hcs.1 (cs.flatMap escapeChar ++ '"' :: r)
    have hrest := ih (by simpa using hcs.2) (n := m) (by simp at hn; omega)
    rw [hd, List.cons_append] at hchar
    rw [List.flatMap_cons, List.append_assoc, hd, List.cons_append, scanText, if_neg hquote, hchar]
    simp only [bind, Except.bind, hrest]
    rfl

theorem flatMap_escapeChar_length (cs : List Char) : cs.length ≤
    (cs.flatMap escapeChar).length := by
  induction cs with
  | nil => exact Nat.le_refl 0
  | cons c cs ih =>
    have hpos := List.length_pos_iff.mpr (escapeChar_head c).2
    rw [List.flatMap_cons, List.length_append, List.length_cons]
    omega

theorem scanText_string {s : String} (hs : PlainText P s) (r : List Char) :
    ∃ body, quote s ++ r = '"' :: body ∧ scanText body.length body = .ok (s.toList, r) := by
  refine ⟨s.toList.flatMap escapeChar ++ '"' :: r, by simp [quote], ?_⟩
  refine scanText_quote hs.noControl r ?_
  have hlength := flatMap_escapeChar_length s.toList
  rw [List.length_append, List.length_cons]
  omega

theorem toDigits_zero_head {n : Nat} (h : (Nat.toDigits 10 n).head? = some '0') : n = 0 := by
  induction n using Nat.strongRecOn with
  | _ n ih =>
    by_cases hn : n < 10
    · have hdigit : ∀ m < 10, [Nat.digitChar m].head? = some '0' → m = 0 := by decide
      rw [Nat.toDigits_of_lt_base hn] at h
      exact hdigit n hn h
    · rw [Nat.toDigits_of_base_le (by omega) (by omega)] at h
      obtain ⟨c, rest, hc, -⟩ := toDigits_head (n / 10)
      rw [hc, List.cons_append, List.head?_cons, ← List.head?_cons (l := rest), ← hc] at h
      have hzero := ih (n / 10) (by omega) h
      omega

theorem toDigits_length {n : Nat} (h : (n : Int) ≤ safeInt) : (Nat.toDigits 10 n).length ≤ 16 := by
  rw [Nat.length_toDigits_le_iff (by decide) (by decide)]
  unfold safeInt at h
  omega

theorem floats_ends {r : List Char} (h : Ends r) : floats r = false := by
  cases r with
  | nil => rfl
  | cons c r => rcases h c rfl with rfl | rfl | rfl <;> (cases r <;> rfl)

theorem scanNumber_digits {n : Nat} (hn : (n : Int) ≤ safeInt) {r : List Char} (hr : Ends r) :
    scanNumber (Nat.toDigits 10 n ++ r) = .ok (.int n, r) := by
  obtain ⟨d, rest, hd, hdigit⟩ := toDigits_head n
  have hall : ∀ c ∈ Nat.toDigits 10 n, c.isDigit = true :=
    fun c hc => Nat.isDigit_of_mem_toDigits (by omega) (by omega) hc
  have hpositive : (Nat.toDigits 10 n ++ r).head? ≠ some '-' := by
    rw [hd, List.cons_append, List.head?_cons]
    rintro h
    rw [Option.some.inj h] at hdigit
    cases hdigit
  have hdigits : (Nat.toDigits 10 n ++ r).takeWhile Char.isDigit = Nat.toDigits 10 n := by
    rw [List.takeWhile_append_of_pos hall, hr.noDigit, List.append_nil]
  have htoken : (if (Nat.toDigits 10 n).head? = some '0' then ['0'] else Nat.toDigits 10 n) =
      Nat.toDigits 10 n := by
    by_cases hzero : (Nat.toDigits 10 n).head? = some '0'
    · rw [toDigits_zero_head hzero]
      rfl
    · rw [if_neg hzero]
  have hnonempty : Nat.toDigits 10 n ≠ [] := Nat.toDigits_ne_nil
  have hshort : ¬ 4300 < (Nat.toDigits 10 n).length := by
    have hlength := toDigits_length hn
    omega
  unfold scanNumber
  simp only [hpositive, Bool.false_eq_true, if_false, hdigits, htoken, hnonempty,
    List.drop_left, floats_ends hr, hshort, Nat.ofDigitChars_ten_toDigits]

/-- A value's text is read back, with the fields of its objects in order. -/
def ReadBack (v : Json) : Prop := ∀ n r, (dumps v).length ≤ n → Ends r →
  scanValue n (dumps v ++ r) = .ok (arranged v, r)

theorem readBack_null : ReadBack .null := by
  intro n r hn _
  obtain ⟨m, rfl⟩ : ∃ m, n = m + 1 := ⟨n - 1, by simp [dumps] at hn; omega⟩
  simp [dumps, scanValue, scanAtom, names, arranged, bind, Except.bind, pure, Except.pure]

theorem readBack_int {k : Int} (h : 0 ≤ k ∧ k ≤ safeInt) : ReadBack (.int k) := by
  intro n r hn hr
  obtain ⟨j, rfl⟩ := Int.eq_ofNat_of_zero_le h.1
  have hnumber := scanNumber_digits h.2 hr
  obtain ⟨d, rest, hd, hdigit⟩ := toDigits_head j
  have hdumps : dumps (.int (j : Int)) = Nat.toDigits 10 j := by
    rw [dumps]
    rfl
  rw [hdumps] at hn ⊢
  obtain ⟨m, rfl⟩ : ∃ m, n = m + 1 := ⟨n - 1, by rw [hd, List.length_cons] at hn; omega⟩
  have hne : ∀ c : Char, c.isDigit = false → d ≠ c := by
    rintro c hc rfl
    rw [hc] at hdigit
    cases hdigit
  have hname : names.find? (fun name => name.1 <+: Nat.toDigits 10 j ++ r) = none := by
    rw [List.find?_eq_none, hd]
    intro name hname
    simp only [names, List.mem_cons, List.not_mem_nil, or_false] at hname
    rcases hname with rfl | rfl | rfl | rfl | rfl | rfl <;>
      simpa using fun h => absurd h.symm (hne _ (by decide))
  rw [hd, List.cons_append, scanValue, if_neg (hne _ (by decide)), if_neg (hne _ (by decide)),
    if_neg (hne _ (by decide)), ← List.cons_append, ← hd, scanAtom, hname, arranged]
  exact hnumber

theorem readBack_str {s : String} (h : PlainText P s) : ReadBack (.str s) := by
  intro n r hn hr
  obtain ⟨body, hbody, hscan⟩ := scanText_string h r
  obtain ⟨m, rfl⟩ : ∃ m, n = m + 1 := ⟨n - 1, by simp [dumps, quote] at hn; omega⟩
  rw [dumps, hbody, scanValue, if_pos rfl, hscan, arranged]
  simp only [bind, Except.bind, pure, Except.pure, String.ofList_toList]

theorem kind_lt (v : Json) : kind v < 7 := by
  cases v with
  | bool b => cases b <;> decide
  | _ => simp [kind]

theorem skip_dumps (v : Json) (r : List Char) : skip (dumps v ++ r) = dumps v ++ r := by
  obtain ⟨c, rest, hc, hkind⟩ := dumps_head v
  have hlt : leadKind c < 7 := hkind ▸ kind_lt v
  have hne : ∀ d : Char, leadKind d = 7 → c ≠ d := by
    rintro d hd rfl
    omega
  rw [hc, List.cons_append]
  exact skip_cons ⟨hne _ (by decide), hne _ (by decide), hne _ (by decide), hne _ (by decide)⟩ _

theorem skip_quote (s : String) (r : List Char) : skip (quote s ++ r) = quote s ++ r := by
  rw [quote, List.cons_append]
  exact skip_cons (by decide) _

theorem skip_intercalate {t : List Char} (h : ∀ r, skip (t ++ r) = t ++ r) (ts : List (List Char))
    (r : List Char) : skip ([','].intercalate (t :: ts) ++ r) =
    [','].intercalate (t :: ts) ++ r := by
  cases ts with
  | nil =>
    rw [List.intercalate_singleton]
    exact h r
  | cons u us =>
    rw [List.intercalate_cons_cons, List.append_assoc, List.append_assoc]
    exact h _

/-- A value whose text is read back as it is. -/
def Reads (v : Json) : Prop := ∀ n r, (dumps v).length ≤ n → Ends r →
  scanValue n (dumps v ++ r) = .ok (v, r)

theorem ReadBack.reads {v : Json} (h : ReadBack v) : Reads (arranged v) := by
  intro n r hn hr
  rw [dumps_arranged] at hn ⊢
  exact h n r hn hr

theorem scanElements_element {v : Json} (hv : Reads v) {n : Nat} {done : List Json} {r : List Char}
    (hn : (dumps v).length ≤ n) (hr : Ends r) : scanElements (n + 1) done (dumps v ++ r) =
      if r.head? = some ',' then scanElements n (done ++ [v]) (skip r.tail)
      else if r.head? = some ']' then .ok (.arr (done ++ [v]), r.tail)
      else invalid := by
  rw [scanElements, hv n r hn hr]
  simp only [bind, Except.bind, skip_ends hr, pure, Except.pure]

theorem scanElements_items {items : List Json} (done : List Json) (hne : items ≠ [])
    (hitems : ∀ v ∈ items, Reads v) {n : Nat} {r : List Char}
    (hn : ([','].intercalate (items.map dumps)).length < n) :
    scanElements n done ([','].intercalate (items.map dumps) ++ ']' :: r) =
      .ok (.arr (done ++ items), r) := by
  induction items generalizing done n with
  | nil => exact absurd rfl hne
  | cons v rest ih =>
    obtain ⟨m, rfl⟩ : ∃ m, n = m + 1 := ⟨n - 1, by omega⟩
    have hv := hitems v List.mem_cons_self
    cases rest with
    | nil =>
      simp only [List.map_cons, List.map_nil, List.intercalate_singleton] at hn ⊢
      rw [scanElements_element hv (by omega) (Ends.cons (.inr (.inl rfl)) r)]
      rfl
    | cons w rest =>
      simp only [List.map_cons, List.intercalate_cons_cons, List.append_assoc, List.length_append,
        List.nil_append, List.cons_append, List.length_cons] at hn ⊢
      have hrest := ih (done ++ [v]) (n := m) (by simp)
        (fun x hx => hitems x (List.mem_cons_of_mem _ hx)) (by rw [List.map_cons]; omega)
      rw [scanElements_element hv (by omega) (Ends.cons (.inl rfl) _), List.head?_cons, if_pos rfl,
        List.tail_cons]
      rw [skip_intercalate (skip_dumps w)]
      rw [List.append_assoc, List.singleton_append] at hrest
      exact hrest

def fieldText (p : String × Json) : List Char := member (p.1, dumps p.2)

theorem skip_fieldText (p : String × Json) (r : List Char) :
    skip (fieldText p ++ r) = fieldText p ++ r := by
  rw [fieldText, member, List.append_assoc]
  exact skip_quote p.1 _

theorem scanMembers_member {p : String × Json} (hkey : PlainText P p.1) (hv : Reads p.2) {n : Nat}
    {done : List (String × Json)} {r : List Char} (hn : (fieldText p).length ≤ n) (hr : Ends r) :
    scanMembers (n + 1) done (fieldText p ++ r) =
      if r.head? = some ',' then scanMembers n (done ++ [p]) (skip r.tail)
      else if r.head? = some '}' then do
        require ((done ++ [p]).map Prod.fst).Nodup (contractFail "duplicate JSON key")
        return (.obj (done ++ [p]), r.tail)
      else invalid := by
  obtain ⟨body, hbody, hscan⟩ := scanText_string hkey (':' :: (dumps p.2 ++ r))
  have htext : fieldText p ++ r = '"' :: body := by
    rw [← hbody, fieldText, member, List.append_assoc, List.cons_append]
  have hlength : (dumps p.2).length ≤ n := by
    simp only [fieldText, member, List.length_append, List.length_cons] at hn
    omega
  have hcolon : skip (':' :: (dumps p.2 ++ r)) = ':' :: (dumps p.2 ++ r) := skip_cons (by decide) _
  rw [htext, scanMembers, if_pos rfl, hscan]
  simp only [bind, Except.bind, hcolon, List.head?_cons, if_true, List.tail_cons, skip_dumps,
    hv n r hlength hr, skip_ends hr, String.ofList_toList]

theorem scanMembers_fields {fields : List (String × Json)} (done : List (String × Json))
    (hne : fields ≠ [])
    (hfields : ∀ p ∈ fields, PlainText P p.1 ∧ Reads p.2)
    (hnodup : ((done ++ fields).map Prod.fst).Nodup) {n : Nat} {r : List Char}
    (hn : ([','].intercalate (fields.map fieldText)).length < n) :
    scanMembers n done ([','].intercalate (fields.map fieldText) ++ '}' :: r) =
      .ok (.obj (done ++ fields), r) := by
  induction fields generalizing done n with
  | nil => exact absurd rfl hne
  | cons p rest ih =>
    obtain ⟨m, rfl⟩ : ∃ m, n = m + 1 := ⟨n - 1, by omega⟩
    obtain ⟨hkey, hv⟩ := hfields p List.mem_cons_self
    cases rest with
    | nil =>
      simp only [List.map_cons, List.map_nil, List.intercalate_singleton] at hn ⊢
      rw [scanMembers_member hkey hv (by omega) (Ends.cons (.inr (.inr rfl)) r), List.head?_cons,
        if_neg (by decide), if_pos rfl, (require_ok _ _ ⟨⟩).mpr hnodup]
      rfl
    | cons q rest =>
      simp only [List.map_cons, List.intercalate_cons_cons, List.append_assoc, List.length_append,
        List.nil_append, List.cons_append, List.length_cons] at hn ⊢
      have hrest := ih (done ++ [p]) (n := m) (by simp)
        (fun x hx => hfields x (List.mem_cons_of_mem _ hx)) (by simpa using hnodup)
        (by rw [List.map_cons]; omega)
      rw [scanMembers_member hkey hv (by omega) (Ends.cons (.inl rfl) _), List.head?_cons,
        if_pos rfl, List.tail_cons]
      rw [skip_intercalate (skip_fieldText q)]
      rw [List.append_assoc, List.singleton_append] at hrest
      exact hrest

theorem head_intercalate {t : List Char} {c : Char} {rest : List Char} (h : t = c :: rest)
    (ts : List (List Char)) (r : List Char) :
    ([','].intercalate (t :: ts) ++ r).head? = some c := by
  subst h
  cases ts with
  | nil => rfl
  | cons u us => rw [List.intercalate_cons_cons]; rfl

theorem readBack_arr {items : List Json} (h : ∀ v ∈ items, ReadBack v) : ReadBack (.arr items) := by
  intro n r hn _
  have htexts : (items.map arranged).map dumps = items.map dumps := by
    rw [List.map_map]
    exact List.map_congr_left fun v _ => dumps_arranged v
  rw [dumps_arr, List.map_id, ← htexts] at hn ⊢
  simp only [List.length_cons, List.length_append, List.length_nil] at hn
  obtain ⟨m, rfl⟩ : ∃ m, n = m + 1 := ⟨n - 1, by omega⟩
  rw [List.cons_append, List.append_assoc, List.singleton_append, scanValue, if_neg (by decide),
    if_neg (by decide), if_pos rfl, arranged, arrangedItems_map]
  cases items with
  | nil => rfl
  | cons v rest =>
    obtain ⟨c, body, hc, hkind⟩ := dumps_head (arranged v)
    have hne : c ≠ ']' := by
      rintro rfl
      have hlt := kind_lt (arranged v)
      rw [← hkind] at hlt
      exact absurd hlt (by decide)
    have hreads : ∀ w ∈ (v :: rest).map arranged, Reads w := by
      intro w hw
      obtain ⟨x, hx, rfl⟩ := List.mem_map.mp hw
      exact (h x hx).reads
    have hitems := scanElements_items [] (n := m) (r := r) (by simp) hreads (by omega)
    rw [List.map_cons, List.map_cons] at hitems ⊢
    rw [skip_intercalate (skip_dumps _), head_intercalate hc, if_neg (by simpa using hne)]
    exact hitems

theorem readBack_obj {fields : List (String × Json)} (hnodup : (fields.map Prod.fst).Nodup)
    (hkeys : ∀ p ∈ fields, PlainText P p.1) (h : ∀ p ∈ fields, ReadBack p.2) :
    ReadBack (.obj fields) := by
  intro n r hn _
  have hperm := List.perm_insertionSort fieldLe (arrangedFields fields)
  have hsorted : ∀ p ∈ (arrangedFields fields).insertionSort fieldLe, PlainText P p.1 ∧
      Reads p.2 := by
    intro p hp
    rw [hperm.mem_iff, arrangedFields_map] at hp
    obtain ⟨q, hq, rfl⟩ := List.mem_map.mp hp
    exact ⟨hkeys q hq, (h q hq).reads⟩
  have hkeys' : (((arrangedFields fields).insertionSort fieldLe).map Prod.fst).Nodup := by
    rw [(hperm.map Prod.fst).nodup_iff, arranged_keys]
    exact hnodup
  have hmembers : (sortedMembers fields).map member =
      ((arrangedFields fields).insertionSort fieldLe).map fieldText := by
    rw [sortedMembers_arranged fun p _ => dumps_arranged p.2, List.map_map]
    rfl
  rw [dumps_obj, hmembers] at hn ⊢
  rw [arranged]
  generalize (arrangedFields fields).insertionSort fieldLe = sorted at hsorted hkeys' hn ⊢
  simp only [List.length_cons, List.length_append, List.length_nil] at hn
  obtain ⟨m, rfl⟩ : ∃ m, n = m + 1 := ⟨n - 1, by omega⟩
  rw [List.cons_append, List.append_assoc, List.singleton_append, scanValue, if_neg (by decide),
    if_pos rfl]
  cases sorted with
  | nil => rfl
  | cons p rest =>
    have hfields := scanMembers_fields [] (n := m) (r := r) (by simp) hsorted hkeys' (by omega)
    rw [List.map_cons] at hfields ⊢
    rw [skip_intercalate (skip_fieldText p), head_intercalate (rfl : fieldText p = '"' :: _),
      if_neg (by decide)]
    exact hfields

mutual
theorem readBack : ∀ (v : Json) (d : Nat), Normal P d v → ReadBack v
  | .null, _, _ => readBack_null
  | .bool _, _, h => h.elim
  | .int _, _, h => readBack_int h.2
  | .str _, _, h => readBack_str h.2
  | .arr items, d, h => readBack_arr (readBackItems items (d + 1) h.2)
  | .obj fields, d, h => readBack_obj h.2.1
      (fun p hp => (normalFields_iff.mp h.2.2 p hp).2.1) (readBackFields fields (d + 1) h.2.2)

theorem readBackItems : ∀ (items : List Json) (d : Nat), NormalItems P d items →
    ∀ v ∈ items, ReadBack v
  | [], _, _ => by simp
  | item :: rest, d, h => by
    have hitem := readBack item d h.1
    have hrest := readBackItems rest d h.2
    intro v hv
    rcases List.mem_cons.mp hv with rfl | hv
    · exact hitem
    · exact hrest v hv

theorem readBackFields : ∀ (fields : List (String × Json)) (d : Nat), NormalFields P d fields →
    ∀ p ∈ fields, ReadBack p.2
  | [], _, _ => by simp
  | (_, item) :: rest, d, h => by
    have hitem := readBack item d h.1.2.2
    have hrest := readBackFields rest d h.2
    intro p hp
    rcases List.mem_cons.mp hp with rfl | hp
    · exact hitem
    · exact hrest p hp
end

theorem loads_dumps {v : Json} {d : Nat} (h : Normal P d v) : loads (dumps v) = .ok
    (arranged v) := by
  obtain ⟨c, rest, hc, hkind⟩ := dumps_head v
  have hmark : (dumps v).head? ≠ some (Char.ofNat 0xFEFF) := by
    rw [hc, List.head?_cons]
    intro hsame
    have hlt := kind_lt v
    rw [← hkind, Option.some.inj hsame] at hlt
    exact absurd hlt (by decide)
  have hskip := skip_dumps v []
  have hread := readBack v d h ((dumps v).length + 1) [] (by omega) Ends.nil
  rw [List.append_nil] at hskip hread
  unfold loads
  rw [(require_ok _ _ ⟨⟩).mpr hmark, hskip, hread]
  rfl

theorem utf8Encode_size (text : List Char) : text.utf8Encode.size = byteSize text := by
  induction text with
  | nil => rfl
  | cons c rest ih =>
    have hc : [c].utf8Encode.size = c.utf8Size := by
      rw [List.utf8Encode_singleton, List.size_toByteArray, String.length_utf8EncodeChar]
    rw [List.utf8Encode_cons, ByteArray.size_append, ih, hc, byteSize, byteSize, List.map_cons,
      List.sum_cons]

theorem fromUTF8_utf8Encode (text : List Char) :
    String.fromUTF8? text.utf8Encode = some (String.ofList text) := by
  rw [String.fromUTF8?, dif_pos ByteArray.isValidUTF8_utf8Encode]
  refine congrArg some (String.toByteArray_inj.mp ?_)
  rw [String.toByteArray_ofList]
  rfl

theorem parseJson_dumps {v : Json} (h : Normal P 0 v) {n : Int} (hn : byteSize (dumps v) ≤ n) :
    parseJson P (dumps v).utf8Encode n = .ok (arranged v) := by
  have hpositive : 1 ≤ byteSize (dumps v) := by
    obtain ⟨c, rest, hc, -⟩ := dumps_head v
    have hsize := Char.utf8Size_pos c
    rw [hc, byteSize, List.map_cons, List.sum_cons]
    omega
  have hone : (1 : Int) ≤ n := by omega
  have hsize : ((dumps v).utf8Encode.size : Int) ≤ n := by
    rw [utf8Encode_size]
    exact hn
  unfold parseJson
  rw [(require_ok _ _ ⟨⟩).mpr hone, fromUTF8_utf8Encode]
  simp only [bind, Except.bind, (require_ok _ _ ⟨⟩).mpr hsize, String.toList_ofList, loads_dumps h]
  exact normalize_of_normal _ 0 (arranged_normal v 0 h)

theorem canonicalBytes_ok {v : Json} {bytes : List Char} (h : canonicalBytes P v = .ok bytes) :
    ∃ out, normalize P 0 v = .ok out ∧ bytes = dumps out := by
  unfold canonicalBytes at h
  cases hout : normalize P 0 v with
  | error e =>
    rw [hout] at h
    cases h
  | ok out =>
    rw [hout] at h
    cases h
    exact ⟨out, rfl, rfl⟩

/-- `parse_json` reads back what `canonical_bytes` writes, the canonical bytes of what it reads are
the bytes read, and values have the same canonical bytes exactly when they normalise to the same
value. -/
theorem canonical_json_is_faithful (hP : NfcLawful P) :
    (∀ v bytes, canonicalBytes P v = .ok bytes → ∀ n : Int, byteSize bytes ≤ n →
      ∃ normalized parsed, normalize P 0 v = .ok normalized ∧
        parseJson P bytes.utf8Encode n = .ok parsed ∧ same parsed normalized = true ∧
        canonicalBytes P parsed = .ok bytes) ∧
    ∀ v w bytes bytes', canonicalBytes P v = .ok bytes → canonicalBytes P w = .ok bytes' →
      ∃ v' w', normalize P 0 v = .ok v' ∧ normalize P 0 w = .ok w' ∧
        (bytes = bytes' ↔ same v' w' = true) := by
  constructor
  · intro v bytes h n hn
    obtain ⟨out, hout, rfl⟩ := canonicalBytes_ok h
    have hnormal := normalize_normal hP v 0 out hout
    have hfixed := normalize_of_normal _ 0 (arranged_normal out 0 hnormal)
    refine ⟨out, arranged out, hout, parseJson_dumps hnormal hn, arranged_same hnormal, ?_⟩
    rw [canonicalBytes_fixed hfixed, dumps_arranged]
  · intro v w bytes bytes' hv hw
    obtain ⟨v', hv', rfl⟩ := canonicalBytes_ok hv
    obtain ⟨w', hw', rfl⟩ := canonicalBytes_ok hw
    exact ⟨v', w', hv', hw', text_iff v' 0 (normalize_normal hP v 0 v' hv') w'
      (normalize_normal hP w 0 w' hw')⟩

/-- A platform whose texts are all in normal form. -/
def sampleNfc : Platform where
  nfc s := s
  sha256 _ := ""
  verify _ _ _ := false

theorem sampleNfc_lawful : NfcLawful sampleNfc := ⟨fun _ => rfl, fun _ h => h⟩

def sampleObject : Json := .obj [("b", .int 1), ("a", .arr [.null])]

theorem sampleObject_normal : Normal sampleNfc 0 sampleObject := by
  have hkey : ∀ s ∈ ["a", "b"], PlainText sampleNfc s := by
    intro s hs
    refine ⟨?_, rfl, ?_⟩ <;> revert s <;> decide
  simp [sampleObject, Normal, NormalFields, NormalItems, hkey, safeInt]

theorem canonical_json_is_faithful_sample : ∃ normalized parsed,
    normalize sampleNfc 0 sampleObject = .ok normalized ∧
    parseJson sampleNfc (dumps sampleObject).utf8Encode 64 = .ok parsed ∧
    same parsed normalized = true ∧ canonicalBytes sampleNfc parsed = .ok (dumps sampleObject) :=
  (canonical_json_is_faithful sampleNfc_lawful).1 sampleObject (dumps sampleObject)
    (canonicalBytes_fixed (normalize_of_normal _ 0 sampleObject_normal)) 64 (by decide)

end Json
end Heel
