import WorkerCluster.Proofs.Json.Numbers
import WorkerCluster.Proofs.Json.Strings

/-!
# JSON texts read back

* `ScansAs` is what the scanner of atoms makes of a text, `Scans` what that of values makes of one.
* `scanItems_text` and `scanFields_text` take `Scans` from the parts of a value to the whole.
* `scan_bytes` takes the text of a value apart into the source of the value, and nothing is left of
  the text.
-/

namespace WorkerCluster.Json

open Text (utf8 utf8_cons_of_lt)

/-! ### Texts as characters -/

/-- The bytes of a text. -/
def bytesOf (s : String) : List UInt8 := utf8 s.toList

theorem bytesOf_append (s t : String) : bytesOf (s ++ t) = bytesOf s ++ bytesOf t := by
  rw [bytesOf, String.toList_append, Text.utf8_append]
  rfl

theorem bytesOf_quote (s : String) :
    bytesOf (quote s) = 34 :: (utf8 (s.toList.flatMap escape) ++ [34]) := utf8_quote s

theorem commas_cons (s t : String) (rest : List String) :
    bytesOf (commas (s :: t :: rest)) = bytesOf s ++ 44 :: bytesOf (commas (t :: rest)) := by
  have step (acc : String) : ∀ (rest : List String) (t : String),
      bytesOf (rest.foldl (fun acc t => acc ++ "," ++ t) (acc ++ "," ++ t)) =
        bytesOf acc ++ 44 :: bytesOf (rest.foldl (fun acc t => acc ++ "," ++ t) t) := by
    intro rest
    induction rest with
    | nil =>
      intro t
      rw [List.foldl_nil, List.foldl_nil, bytesOf_append, bytesOf_append, List.append_assoc]
      rfl
    | cons u rest ih =>
      intro t
      rw [List.foldl_cons, List.foldl_cons, ← ih (t ++ "," ++ u)]
      simp only [String.append_assoc]
  exact step s rest t

theorem bytesOf_array (items : List Json) :
    bytesOf (array items).text = 91 :: (bytesOf (commas (textItems items)) ++ [93]) := by
  rw [text, bytesOf_append, bytesOf_append]
  rfl

theorem bytesOf_fields (entries : List (String × Json)) :
    bytesOf (fields entries).text = 123 :: (bytesOf (commas (textFields entries)) ++ [125]) := by
  rw [text, bytesOf_append, bytesOf_append]
  rfl

/-! ### Beginnings and ends -/

/-- The first byte of a value. -/
def Begins (b : UInt8) : Prop :=
  isBlank b = false ∧ b ≠ 93 ∧ b ≠ 125

/-- What may follow a value: nothing, a comma or a bracket. -/
def Ends : List UInt8 → Prop
  | [] => True
  | b :: _ => b = 44 ∨ b = 93 ∨ b = 125

theorem Ends.stops {rest : List UInt8} (h : Ends rest) : Stops rest := by
  cases rest with
  | nil => trivial
  | cons b rest => rcases h with rfl | rfl | rfl <;> exact ⟨rfl, by decide, by decide, by decide⟩

theorem skipBlanks_cons {b : UInt8} (h : isBlank b = false) (l : List UInt8) :
    skipBlanks (b :: l) = b :: l := by
  rw [skipBlanks, List.dropWhile_cons, h]
  rfl

theorem scanWord_append (w rest : List UInt8) : scanWord w (w ++ rest) = .ok rest := by
  induction w with
  | nil => rfl
  | cons b w ih => rw [List.cons_append, scanWord, if_pos rfl, ih]

theorem scanLiteral_append (word : String) (v : Scalar) (rest : List UInt8) :
    scanLiteral word v (bytesOf word ++ rest) = (.ofScalar v, some rest) := by
  rw [scanLiteral, Text.toUTF8_toList, ← bytesOf, scanWord_append]

/-- An atom is scanned from its first byte, which begins neither an array nor an object. -/
def ScansAs (text : List UInt8) (s : Scalar) : Prop :=
  ∃ b t, text = b :: t ∧ Begins b ∧ b ≠ 91 ∧ b ≠ 123 ∧
    ∀ rest, Ends rest → scanAtom b (t ++ rest) = (.ofScalar s, some rest)

theorem scansAs_null : ScansAs (bytesOf null.text) .null :=
  ⟨110, bytesOf "ull", rfl, ⟨rfl, by decide, by decide⟩, by decide, by decide, fun rest _ =>
    scanLiteral_append "ull" .null rest⟩

theorem scansAs_bool (b : Bool) : ScansAs (bytesOf (bool b).text) (.bool b) := by
  cases b with
  | true =>
    exact ⟨116, bytesOf "rue", rfl, ⟨rfl, by decide, by decide⟩, by decide, by decide,
      fun rest _ => scanLiteral_append "rue" (.bool true) rest⟩
  | false =>
    exact ⟨102, bytesOf "alse", rfl, ⟨rfl, by decide, by decide⟩, by decide, by decide,
      fun rest _ => scanLiteral_append "alse" (.bool false) rest⟩

theorem scansAs_number (n : Number) : ScansAs (bytesOf (number n).text) (.number n) := by
  obtain ⟨b, t, text, digit, scan⟩ := scanAtom_number n
  have ne {c : UInt8} (hc : c ≠ 45) (hd : isDigit c = false) : b ≠ c := by
    rintro rfl
    rcases digit with rfl | digit
    · exact hc rfl
    · rw [hd] at digit
      cases digit
  refine ⟨b, t, text, ⟨?_, ne (by decide) rfl, ne (by decide) rfl⟩, ne (by decide) rfl,
    ne (by decide) rfl, fun rest ends => scan rest ends.stops⟩
  simp [isBlank, ne (c := 32) (by decide) rfl, ne (c := 9) (by decide) rfl,
    ne (c := 10) (by decide) rfl, ne (c := 13) (by decide) rfl]

theorem scansAs_string (s : String) : ScansAs (bytesOf (string s).text) (.string s) := by
  refine ⟨34, _, bytesOf_quote s, ⟨rfl, by decide, by decide⟩, by decide, by decide, ?_⟩
  intro rest _
  rw [List.append_assoc]
  exact scanString_quote s rest

/-- Every value begins with a byte that is no blank and closes no bracket. -/
theorem text_begins (j : Json) : ∃ b t, bytesOf j.text = b :: t ∧ Begins b := by
  have atom {text : List UInt8} {s : Scalar} : ScansAs text s → ∃ b t, text = b :: t ∧ Begins b :=
    fun ⟨b, t, h, begins, _⟩ => ⟨b, t, h, begins⟩
  cases j with
  | null => exact atom scansAs_null
  | bool b => exact atom (scansAs_bool b)
  | number n => exact atom (scansAs_number n)
  | string s => exact atom (scansAs_string s)
  | array items => exact ⟨91, _, bytesOf_array items, rfl, by decide, by decide⟩
  | fields entries => exact ⟨123, _, bytesOf_fields entries, rfl, by decide, by decide⟩

/-! ### Values -/

section

variable {fuel : ℕ} {b : UInt8} {t rest : List UInt8}

theorem scanValue_other (blank : isBlank b = false) (h91 : b ≠ 91) (h123 : b ≠ 123) :
    scanValue (fuel + 1) (b :: t) = (.atom (scanAtom b t).1, (scanAtom b t).2) := by
  rw [scanValue, skipBlanks_cons blank]
  split
  · rename_i h
    cases h
  · rename_i h
    exact absurd (List.cons.inj h).1 h91
  · rename_i h
    exact absurd (List.cons.inj h).1 h123
  · rename_i h
    cases h
    rfl

theorem scanValue_array (h : Begins b) :
    scanValue (fuel + 1) (91 :: b :: t) =
      (.array (scanItems fuel (b :: t)).1 (scanItems fuel (b :: t)).2.1,
        (scanItems fuel (b :: t)).2.2) := by
  rw [scanValue, skipBlanks_cons (by rfl)]
  split
  · rename_i e
    cases e
  · rename_i e
    cases e
    rw [skipBlanks_cons h.1]
    split
    · rename_i e
      cases e
    · rename_i e
      exact absurd (List.cons.inj e).1 h.2.1
    · rfl
  · rename_i e
    exact absurd (List.cons.inj e).1 (by decide)
  · rename_i other _ e
    cases e
    exact (other rfl).elim

theorem scanValue_fields (h : Begins b) :
    scanValue (fuel + 1) (123 :: b :: t) =
      (.fields (scanFields fuel (b :: t)).1 (scanFields fuel (b :: t)).2.1,
        (scanFields fuel (b :: t)).2.2) := by
  rw [scanValue, skipBlanks_cons (by rfl)]
  split
  · rename_i e
    cases e
  · rename_i e
    exact absurd (List.cons.inj e).1 (by decide)
  · rename_i e
    cases e
    rw [skipBlanks_cons h.1]
    split
    · rename_i e
      cases e
    · rename_i e
      exact absurd (List.cons.inj e).1 h.2.2
    · rfl
  · rename_i _ other e
    cases e
    exact (other rfl).elim

variable {s : Source} {text : List UInt8}

theorem scanItems_last (h : scanValue fuel text = (s, some (93 :: rest))) :
    scanItems (fuel + 1) text = ([s], none, some rest) := by
  rw [scanItems, h]
  rfl

theorem scanItems_next (h : scanValue fuel text = (s, some (44 :: rest))) :
    scanItems (fuel + 1) text =
      (s :: (scanItems fuel rest).1, (scanItems fuel rest).2.1, (scanItems fuel rest).2.2) := by
  rw [scanItems, h]
  rfl

/-- A name in quotes, a colon and what follows. -/
def field (name : String) (text : List UInt8) : List UInt8 := bytesOf (quote name) ++ 58 :: text

/-- A field is read up to what follows its value. -/
theorem scanFields_field (name : String) {next : UInt8}
    (h : scanValue fuel text = (s, some (next :: rest))) :
    (next = 125 → scanFields (fuel + 1) (field name text) =
      ([(.ofScalar (.string name), s)], none, some rest)) ∧
    (next = 44 → scanFields (fuel + 1) (field name text) =
      ((.ofScalar (.string name), s) :: (scanFields fuel rest).1, (scanFields fuel rest).2.1,
        (scanFields fuel rest).2.2)) := by
  rw [field, bytesOf_quote, List.cons_append, List.append_assoc, scanFields,
    skipBlanks_cons (by rfl)]
  split
  · rename_i e
    cases e
  · rename_i e
    obtain rfl := (List.cons.inj e).2
    rw [List.singleton_append, scanString_quote]
    dsimp only
    rw [skipBlanks_cons (by rfl)]
    split
    · rename_i e
      cases e
    · rename_i e
      obtain rfl := (List.cons.inj e).2
      rw [h]
      constructor
      · rintro rfl
        rfl
      · rintro rfl
        rfl
    · rename_i other
      exact (other _ rfl).elim
  · rename_i _ other
    exact (other _ rfl).elim

theorem scanFields_last (name : String) (h : scanValue fuel text = (s, some (125 :: rest))) :
    scanFields (fuel + 1) (field name text) = ([(.ofScalar (.string name), s)], none, some rest) :=
  (scanFields_field name h).1 rfl

theorem scanFields_next (name : String) (h : scanValue fuel text = (s, some (44 :: rest))) :
    scanFields (fuel + 1) (field name text) =
      ((.ofScalar (.string name), s) :: (scanFields fuel rest).1, (scanFields fuel rest).2.1,
        (scanFields fuel rest).2.2) :=
  (scanFields_field name h).2 rfl

end

theorem scanValue_atom {text : List UInt8} {s : Scalar} (h : ScansAs text s) {fuel : ℕ}
    (enough : 2 * text.length ≤ fuel) {rest : List UInt8} (ends : Ends rest) :
    scanValue fuel (text ++ rest) = (.atom (.ofScalar s), some rest) := by
  obtain ⟨b, t, rfl, ⟨blank, -, -⟩, h91, h123, scan⟩ := h
  obtain ⟨fuel, rfl⟩ : ∃ f, fuel = f + 1 :=
    ⟨fuel - 1, by rw [List.length_cons] at enough; omega⟩
  rw [List.cons_append, scanValue_other blank h91 h123, scan rest ends]

theorem bytesOf_field (name : String) (j : Json) :
    bytesOf (quote name ++ ":" ++ j.text) = field name (bytesOf j.text) := by
  rw [bytesOf_append, bytesOf_append, List.append_assoc]
  rfl

theorem field_append (name : String) (text rest : List UInt8) :
    field name text ++ rest = field name (text ++ rest) := by
  rw [field, field, List.append_assoc]
  rfl

theorem length_field (name : String) (text : List UInt8) :
    text.length + 3 ≤ (field name text).length := by
  rw [field, bytesOf_quote]
  simp only [List.length_append, List.length_cons, List.length_nil]
  omega

theorem field_begins (name : String) (text : List UInt8) :
    ∃ t, field name text = 34 :: t := ⟨_, by rw [field, bytesOf_quote]; rfl⟩

/-- The bytes of the items of an array. -/
def itemBytes (items : List Json) : List UInt8 := bytesOf (commas (textItems items))

/-- The bytes of the fields of an object. -/
def fieldBytes (entries : List (String × Json)) : List UInt8 :=
  bytesOf (commas (textFields entries))

theorem itemBytes_one (j : Json) : itemBytes [j] = bytesOf j.text := rfl

theorem itemBytes_cons (j k : Json) (items : List Json) :
    itemBytes (j :: k :: items) = bytesOf j.text ++ 44 :: itemBytes (k :: items) := by
  rw [itemBytes, textItems, textItems, commas_cons]
  rfl

theorem fieldBytes_one (name : String) (j : Json) :
    fieldBytes [(name, j)] = field name (bytesOf j.text) := bytesOf_field name j

theorem fieldBytes_cons (name other : String) (j k : Json) (entries : List (String × Json)) :
    fieldBytes ((name, j) :: (other, k) :: entries) =
      field name (bytesOf j.text) ++ 44 :: fieldBytes ((other, k) :: entries) := by
  rw [fieldBytes, textFields, textFields, commas_cons, bytesOf_field]
  rfl

theorem itemBytes_begins (j : Json) (items : List Json) :
    ∃ b t, itemBytes (j :: items) = b :: t ∧ Begins b := by
  obtain ⟨b, t, h, begins⟩ := text_begins j
  cases items with
  | nil => exact ⟨b, t, h, begins⟩
  | cons k items =>
    refine ⟨b, t ++ 44 :: itemBytes (k :: items), ?_, begins⟩
    rw [itemBytes_cons, h, List.cons_append]

theorem fieldBytes_begins (name : String) (j : Json) (entries : List (String × Json)) :
    ∃ b t, fieldBytes ((name, j) :: entries) = b :: t ∧ Begins b := by
  obtain ⟨t, h⟩ := field_begins name (bytesOf j.text)
  have begins : Begins 34 := ⟨rfl, by decide, by decide⟩
  match entries with
  | [] => exact ⟨34, t, by rw [fieldBytes_one, h], begins⟩
  | (other, k) :: entries =>
    refine ⟨34, t ++ 44 :: fieldBytes ((other, k) :: entries), ?_, begins⟩
    rw [fieldBytes_cons, h, List.cons_append]

/-- What the scanner of values has to do with enough fuel. -/
def Scans (j : Json) : Prop :=
  ∀ fuel rest, 2 * (bytesOf j.text).length ≤ fuel → Ends rest →
    scanValue fuel (bytesOf j.text ++ rest) = (Source.ofJson j, some rest)

theorem scanItems_text {j : Json} {items : List Json} (hj : Scans j) (hi : ∀ k ∈ items, Scans k)
    (fuel : ℕ) (enough : 2 * (itemBytes (j :: items)).length + 1 ≤ fuel) (rest : List UInt8) :
    scanItems fuel (itemBytes (j :: items) ++ 93 :: rest) =
      (Source.ofItems (j :: items), none, some rest) := by
  -- every item takes one unit of fuel, and is at least as long as that
  induction items generalizing j fuel with
  | nil =>
    obtain ⟨fuel, rfl⟩ : ∃ f, fuel = f + 1 := ⟨fuel - 1, by omega⟩
    rw [itemBytes_one] at enough ⊢
    exact scanItems_last (hj fuel (93 :: rest) (by omega) (.inr (.inl rfl)))
  | cons k items ih =>
    obtain ⟨fuel, rfl⟩ : ∃ f, fuel = f + 1 := ⟨fuel - 1, by omega⟩
    rw [itemBytes_cons] at enough ⊢
    simp only [List.length_append, List.length_cons] at enough
    rw [List.append_assoc, List.cons_append,
      scanItems_next (hj fuel (44 :: _) (by omega) (.inl rfl)),
      ih (hi k (List.mem_cons_self ..)) (fun l hl => hi l (List.mem_cons_of_mem _ hl)) fuel
        (by omega)]
    rfl

theorem scanFields_text (name : String) {j : Json} {entries : List (String × Json)} (hj : Scans j)
    (he : ∀ e ∈ entries, Scans e.2) (fuel : ℕ)
    (enough : 2 * (fieldBytes ((name, j) :: entries)).length + 1 ≤ fuel) (rest : List UInt8) :
    scanFields fuel (fieldBytes ((name, j) :: entries) ++ 125 :: rest) =
      (Source.ofFields ((name, j) :: entries), none, some rest) := by
  induction entries generalizing name j fuel with
  | nil =>
    obtain ⟨fuel, rfl⟩ : ∃ f, fuel = f + 1 := ⟨fuel - 1, by omega⟩
    have long := length_field name (bytesOf j.text)
    rw [fieldBytes_one] at enough ⊢
    rw [field_append]
    exact scanFields_last name (hj fuel (125 :: rest) (by omega) (.inr (.inr rfl)))
  | cons e entries ih =>
    obtain ⟨fuel, rfl⟩ : ∃ f, fuel = f + 1 := ⟨fuel - 1, by omega⟩
    obtain ⟨other, k⟩ := e
    have long := length_field name (bytesOf j.text)
    rw [fieldBytes_cons] at enough ⊢
    simp only [List.length_append, List.length_cons] at enough
    rw [List.append_assoc, List.cons_append, field_append,
      scanFields_next name (hj fuel (44 :: _) (by omega) (.inl rfl)),
      ih other (j := k) (he (other, k) (List.mem_cons_self ..))
        (fun l hl => he l (List.mem_cons_of_mem _ hl)) fuel (by omega)]
    rfl

theorem scans_atom {j : Json} {s : Scalar} (h : ScansAs (bytesOf j.text) s)
    (hj : Source.ofJson j = .atom (.ofScalar s)) : Scans j := by
  intro fuel rest enough ends
  rw [scanValue_atom h enough ends, hj]

theorem scans_array {items : List Json} (h : ∀ j ∈ items, Scans j) : Scans (array items) := by
  intro fuel rest enough ends
  rw [bytesOf_array] at enough ⊢
  simp only [List.length_cons, List.length_append, List.length_nil] at enough
  obtain ⟨fuel, rfl⟩ : ∃ f, fuel = f + 1 := ⟨fuel - 1, by omega⟩
  cases items with
  | nil => rfl
  | cons j items =>
    have scan := scanItems_text (h j (List.mem_cons_self ..))
      (fun k hk => h k (List.mem_cons_of_mem _ hk)) fuel (by rw [itemBytes]; omega) rest
    obtain ⟨b, t, hb, begins⟩ := itemBytes_begins j items
    rw [← itemBytes, List.cons_append, List.append_assoc, List.cons_append, List.nil_append]
    rw [hb, List.cons_append] at scan ⊢
    rw [scanValue_array begins, scan]
    rfl

theorem scans_fields {entries : List (String × Json)} (h : ∀ e ∈ entries, Scans e.2) :
    Scans (fields entries) := by
  intro fuel rest enough ends
  rw [bytesOf_fields] at enough ⊢
  simp only [List.length_cons, List.length_append, List.length_nil] at enough
  obtain ⟨fuel, rfl⟩ : ∃ f, fuel = f + 1 := ⟨fuel - 1, by omega⟩
  cases entries with
  | nil => rfl
  | cons e entries =>
    obtain ⟨name, j⟩ := e
    have scan := scanFields_text name (j := j) (h (name, j) (List.mem_cons_self ..))
      (fun k hk => h k (List.mem_cons_of_mem _ hk)) fuel
      (by rw [fieldBytes]; omega) rest
    obtain ⟨b, t, hb, begins⟩ := fieldBytes_begins name j entries
    rw [← fieldBytes, List.cons_append, List.append_assoc, List.cons_append, List.nil_append]
    rw [hb, List.cons_append] at scan ⊢
    rw [scanValue_fields begins, scan]
    rfl

mutual

theorem scans : (j : Json) → Scans j
  | .null => scans_atom scansAs_null rfl
  | .bool b => scans_atom (scansAs_bool b) rfl
  | .number n => scans_atom (scansAs_number n) rfl
  | .string s => scans_atom (scansAs_string s) rfl
  | .array items => scans_array (scans_items items)
  | .fields entries => scans_fields (scans_entries entries)

theorem scans_items : (items : List Json) → ∀ j ∈ items, Scans j
  | [], _, h => nomatch h
  | j :: items, _, h =>
    (List.mem_cons.1 h).elim (fun e => e ▸ scans j) (scans_items items _)

theorem scans_entries : (entries : List (String × Json)) → ∀ e ∈ entries, Scans e.2
  | [], _, h => nomatch h
  | (_, j) :: entries, _, h =>
    (List.mem_cons.1 h).elim (fun e => e ▸ scans j) (scans_entries entries _)

end

theorem bytes_eq (j : Json) : j.bytes = bytesOf j.text := Text.toUTF8_toList j.text

/-- **A value is read back from its text.** -/
theorem scan_bytes (j : Json) : Source.scan j.bytes = (Source.ofJson j, false) := by
  have := scans j (2 * j.bytes.length + 2) [] (by rw [bytes_eq]; omega) trivial
  rw [List.append_nil, ← bytes_eq] at this
  rw [Source.scan, this]
  rfl

end WorkerCluster.Json
