import WorkerCluster.Proofs.Json.Numbers
import WorkerCluster.Proofs.Toml.Quoted
import WorkerCluster.Toml.Document

/-!
# TOML documents read back

* `Writes` says of a text that it is read as a value at the end of a line. Texts, whole numbers,
  truth values and lists of texts have such texts.
* `Says` says of a text that it makes statements, whatever follows it. Such texts can be put
  together: `Says.append`.
-/

namespace WorkerCluster.Toml

open Json (IsDigits isDigits_of_cons isDigits_toDigits head_toDigits)

variable {c : Char} {cs rest : List Char}

theorem span_append {p : Char → Bool} (h : ∀ c ∈ cs, p c = true)
    (stop : ∀ c ∈ rest.head?, p c = false) : (cs ++ rest).span p = (cs, rest) := by
  rw [List.span_eq_takeWhile_dropWhile, List.takeWhile_append_of_pos h,
    List.dropWhile_append_of_pos h]
  cases rest with
  | nil => simp
  | cons c rest => simp [stop c rfl]

/-! ### Numbers -/

theorem digits?_of_isDigits (h : IsDigits cs) (ne : cs ≠ []) :
    digits? Char.isDigit cs = some cs := by
  induction cs with
  | nil => exact absurd rfl ne
  | cons c cs ih =>
    obtain ⟨hc, hcs⟩ := isDigits_of_cons h
    cases cs with
    | nil => rw [digits?, if_pos hc]
    | cons d ds =>
      -- an underscore may stand between digits, and would have to be left out
      have point : d ≠ '_' := by
        rintro rfl
        cases hcs _ (List.mem_cons_self ..)
      rw [digits?, if_pos hc, ih hcs (List.cons_ne_nil d ds)]
      · rfl
      · grind
      · grind

theorem digitValue_of_isDigit (h : c.isDigit = true) : digitValue c = c.toNat - 48 := if_pos h

theorem ofDigits_eq (h : IsDigits cs) : ofDigits 10 cs = Nat.ofDigitChars 10 cs 0 := by
  unfold ofDigits
  generalize 0 = n
  induction cs generalizing n with
  | nil => rfl
  | cons c cs ih =>
    obtain ⟨hc, hcs⟩ := isDigits_of_cons h
    rw [List.foldl_cons, ih hcs, Nat.ofDigitChars_cons, digitValue_of_isDigit hc]
    rfl

/-- The digits of a number begin with a zero only if that is all. -/
theorem whole?_toDigits (n : ℕ) : whole? (Nat.toDigits 10 n) = some (Nat.toDigits 10 n) := by
  have digits := digits?_of_isDigits (isDigits_toDigits n) Nat.toDigits_ne_nil
  unfold whole?
  rw [digits]
  obtain rfl | pos := n.eq_zero_or_pos
  · rfl
  · obtain ⟨c, cs, written, ne⟩ := head_toDigits pos
    rw [written]
    split <;> simp_all

theorem isMoment_of_isDigits (h : IsDigits cs) : isMoment cs = false := by
  have isDate_eq {ds : List Char} (h : IsDigits ds) : isDate ds = false := by
    unfold isDate
    split
    · cases h '-' (by simp)
    · rfl
  have isTime_eq : isTime false cs = false := by
    unfold isTime
    split
    · cases h ':' (by simp)
    · rfl
  have first : IsDigits (cs.take 10) := fun c hc => h c (List.mem_of_mem_take hc)
  rw [isMoment, isDate_eq h, isTime_eq, isDate_eq first]
  rfl

theorem decimal?_toDigits {n : ℕ} (fits : n < 0x8000000000000000) :
    decimal? false (Nat.toDigits 10 n) = some (.integer n) := by
  have digits : (Nat.toDigits 10 n).span (fun c => c.isDigit || c = '_') =
      (Nat.toDigits 10 n, []) := by
    have chars : ∀ c ∈ Nat.toDigits 10 n, (c.isDigit || c = '_') = true := fun c hc => by
      rw [isDigits_toDigits n c hc, Bool.true_or]
    have split := span_append (p := fun c => c.isDigit || c = '_') chars
      (by simp : ∀ c ∈ [].head?, _)
    rwa [List.append_nil] at split
  unfold decimal?
  rw [digits]
  dsimp only
  rw [whole?_toDigits]
  dsimp only
  rw [ofDigits_eq (isDigits_toDigits n), Nat.ofDigitChars_ten_toDigits]
  unfold integer?
  dsimp only
  rw [if_neg Bool.false_ne_true, if_pos (by omega)]

theorem number?_of_isDigits (h : IsDigits cs) : number? cs = decimal? false cs := by
  have unsigned : sign cs = (false, cs) := by
    unfold sign
    split
    · cases h '-' (by simp)
    · cases h '+' (by simp)
    · rfl
  unfold number?
  split
  · cases h 'x' (by simp)
  · cases h 'o' (by simp)
  · cases h 'b' (by simp)
  · rw [unsigned]
    split
    · next e =>
      cases e
      cases h 'i' (by simp)
    · next e =>
      cases e
      cases h 'n' (by simp)
    · next e =>
      cases e
      rfl

theorem word?_toDigits {n : ℕ} (fits : n < 0x8000000000000000) :
    word? (Nat.toDigits 10 n) = some (.integer n) := by
  have digits := isDigits_toDigits n
  have ne {c : Char} {w : List Char} (hw : c ∈ w) (letter : c.isDigit = false) :
      Nat.toDigits 10 n ≠ w := by
    rintro rfl
    cases letter.symm.trans (digits c hw)
  rw [word?, if_neg (ne (c := 't') (by simp) rfl), if_neg (ne (c := 'f') (by simp) rfl),
    isMoment_of_isDigits digits, if_neg Bool.false_ne_true, number?_of_isDigits digits,
    decimal?_toDigits fits]

theorem readWord_toDigits {n : ℕ} (fits : n < 0x8000000000000000) (rest : List Char) :
    readWord (Nat.toDigits 10 n ++ '\n' :: rest) = some (.integer n, '\n' :: rest) := by
  have chars : ∀ c ∈ Nat.toDigits 10 n, isWordChar c = true := fun c hc => by
    simp [isWordChar, Char.isAlphanum, isDigits_toDigits n c hc]
  have stop : ∀ c ∈ ('\n' :: rest).head?, isWordChar c = false := by
    intro c hc
    cases hc
    rfl
  unfold readWord
  rw [span_append chars stop]
  dsimp only
  rw [word?_toDigits fits]
  rfl

/-! ### Values -/

/-- The text is read as the value at the end of a line. -/
structure Writes (text : List Char) (v : Value) : Prop where
  head : ∃ c cs, text = c :: cs ∧ isSpace c = false
  read : ∀ rest, readValue room (text ++ '\n' :: rest) = some (v, '\n' :: rest)

theorem readValue_scalar {room : ℕ} (h : ∀ c ∈ cs.head?, c ≠ '[' ∧ c ≠ '\x7b') :
    readValue room cs = readScalar cs := by
  cases room with
  | zero => rfl
  | succ room =>
    rw [readValue]
    · rintro r rfl
      exact (h '[' rfl).1 rfl
    · rintro r rfl
      exact (h _ rfl).2 rfl

/-- A quoted text is read wherever a value may stand. -/
theorem readValue_write (room : ℕ) (s : String) (closed : Quoted.NoQuote rest) :
    readValue room (Quoted.write s.toList ++ rest) = some (.string s, rest) := by
  have read := Quoted.read_write s.toList closed
  obtain ⟨q, r, written, quote⟩ := Quoted.exists_write s.toList
  rw [written, List.cons_append] at read ⊢
  obtain rfl | rfl := quote
  all_goals
    rw [readValue_scalar (by simp), readScalar, read, Option.map_some]
    dsimp only
    rw [String.ofList_toList]

theorem Writes.string (s : String) : Writes (Quoted.write s.toList) (.string s) where
  head := by
    obtain ⟨q, r, written, rfl | rfl⟩ := Quoted.exists_write s.toList
    all_goals exact ⟨_, _, written, rfl⟩
  read rest := readValue_write room s (by simp [Quoted.NoQuote])

theorem Writes.integer {n : ℕ} (fits : n < 0x8000000000000000) :
    Writes (toString n).toList (.integer n) := by
  rw [Nat.toString_eq_repr, Nat.toList_repr]
  obtain ⟨c, cs, written⟩ := List.exists_cons_of_ne_nil (Nat.toDigits_ne_nil (b := 10) (n := n))
  have digit : c.isDigit = true := isDigits_toDigits n c (written ▸ List.mem_cons_self ..)
  have other {d : Char} (hd : d.isDigit = false) : c ≠ d := by
    rintro rfl
    cases hd.symm.trans digit
  refine ⟨⟨c, cs, written, ?_⟩, fun rest => ?_⟩
  · simp [isSpace, other (d := ' ') rfl, other (d := '\t') rfl]
  · have read := readWord_toDigits fits rest
    rw [written, List.cons_append] at read ⊢
    rw [readValue_scalar (by simp [other (d := '[') rfl, other (d := '\x7b') rfl]), readScalar,
      read]
    · rintro _ ⟨⟩
      cases digit
    · rintro _ ⟨⟩
      cases digit

theorem Writes.bool (b : Bool) :
    Writes (if b then ['t', 'r', 'u', 'e'] else ['f', 'a', 'l', 's', 'e']) (.bool b) := by
  cases b
  · exact ⟨⟨_, _, rfl, rfl⟩, fun rest => rfl⟩
  · exact ⟨⟨_, _, rfl, rfl⟩, fun rest => rfl⟩

theorem skipGap_write (s : String) (rest : List Char) :
    skipGap false (Quoted.write s.toList ++ rest) = Quoted.write s.toList ++ rest := by
  obtain ⟨q, r, written, rfl | rfl⟩ := Quoted.exists_write s.toList
  all_goals
    rw [written]
    rfl

theorem readItems_comma {value : Reader} {fuel : ℕ} {v : Value} {text : List Char}
    (start : skipGap false cs = text) (item : ∀ c ∈ text.head?, c ≠ ']')
    (read : value text = some (v, ',' :: rest)) :
    readItems value (fuel + 1) cs =
      (readItems value fuel rest).map fun more => (v :: more.1, more.2) := by
  rw [readItems, start]
  split
  · exact absurd rfl (item ']' rfl)
  · rw [read]
    change (readItems value fuel rest).bind _ = _
    cases readItems value fuel rest <;> rfl

theorem readItems_last {value : Reader} {fuel : ℕ} {v : Value} {text : List Char}
    (start : skipGap false cs = text) (item : ∀ c ∈ text.head?, c ≠ ']')
    (read : value text = some (v, ']' :: rest)) :
    readItems value (fuel + 1) cs = some ([v], rest) := by
  rw [readItems, start]
  split
  · exact absurd rfl (item ']' rfl)
  · rw [read]
    rfl

theorem head_write {s : String} : ∀ c ∈ (Quoted.write s.toList ++ rest).head?, c ≠ ']' := by
  obtain ⟨q, r, written, rfl | rfl⟩ := Quoted.exists_write s.toList
  all_goals simp [written]

/-- The text of an item that has a line of its own. -/
def itemLine (s : String) : List Char :=
  [' ', ' ', ' ', ' '] ++ Quoted.write s.toList ++ [',', '\n']

theorem readItems_itemLines (room : ℕ) (l : List String) {fuel : ℕ} (enough : l.length < fuel)
    (rest : List Char) :
    readItems (readValue room) fuel ('\n' :: (l.flatMap itemLine ++ ']' :: rest)) =
      some (l.map .string, rest) := by
  induction l generalizing fuel with
  | nil =>
    obtain ⟨fuel, rfl⟩ := Nat.exists_eq_add_of_lt enough
    rfl
  | cons s l ih =>
    obtain ⟨fuel, rfl⟩ : ∃ n, fuel = n + 1 := Nat.exists_eq_add_one.2 (by omega)
    have start : skipGap false ('\n' :: ((s :: l).flatMap itemLine ++ ']' :: rest)) =
        Quoted.write s.toList ++ ',' :: '\n' :: (l.flatMap itemLine ++ ']' :: rest) := by
      rw [← skipGap_write, List.flatMap_cons, itemLine]
      simp only [List.append_assoc, List.cons_append, List.nil_append]
      rfl
    have closed : Quoted.NoQuote (',' :: '\n' :: (l.flatMap itemLine ++ ']' :: rest)) := by
      simp [Quoted.NoQuote]
    have item := readValue_write room s closed
    rw [readItems_comma start head_write item, ih (Nat.lt_of_succ_lt_succ enough)]
    rfl

theorem length_le_flatMap_itemLine (l : List String) : l.length ≤ (l.flatMap itemLine).length := by
  induction l with
  | nil => exact le_rfl
  | cons s l ih =>
    rw [List.flatMap_cons, List.length_append, List.length_cons, itemLine]
    simp only [List.length_append, List.length_cons]
    omega

/-- The text of a list of texts: on one line if there is at most one of them, else with a line for
each. -/
def arrayText : List String → List Char
  | [] => ['[', ']']
  | [s] => '[' :: Quoted.write s.toList ++ [']']
  | l => ['[', '\n'] ++ l.flatMap itemLine ++ [']']

theorem Writes.strings (l : List String) : Writes (arrayText l) (.array (l.map .string)) := by
  match l with
  | [] => exact ⟨⟨_, _, rfl, rfl⟩, fun rest => rfl⟩
  | [s] =>
    refine ⟨⟨_, _, rfl, rfl⟩, fun rest => ?_⟩
    have closed : Quoted.NoQuote (']' :: '\n' :: rest) := by simp [Quoted.NoQuote]
    have item := readValue_write 78 s closed
    rw [arrayText, List.append_assoc, List.cons_append]
    exact congrArg (Option.map _) (readItems_last (skipGap_write s _) head_write item)
  | s :: t :: l =>
    refine ⟨⟨_, _, rfl, rfl⟩, fun rest => ?_⟩
    have text : arrayText (s :: t :: l) ++ '\n' :: rest =
        '[' :: '\n' :: ((s :: t :: l).flatMap itemLine ++ ']' :: '\n' :: rest) := by
      rw [arrayText, List.append_assoc, List.append_assoc]
      · rfl
      · simp
      · simp
    rw [text]
    refine congrArg (Option.map _) (readItems_itemLines 78 (s :: t :: l) ?_ ('\n' :: rest))
    -- the fuel is the length of the text, of which every item has a part
    have each := length_le_flatMap_itemLine (s :: t :: l)
    simp only [List.length_append, List.length_cons] at each ⊢
    omega

/-! ### Keys -/

/-- A key that needs no quotes. -/
def IsKey (key : String) : Prop := key ≠ "" ∧ ∀ c ∈ key.toList, isKeyChar c = true

instance (key : String) : Decidable (IsKey key) :=
  decidable_of_iff ((key != "" && key.toList.all isKeyChar) = true) (by simp [IsKey])

theorem skipSpaces_cons (h : isSpace c = false) (cs : List Char) :
    skipSpaces (c :: cs) = c :: cs := by
  rw [skipSpaces, List.dropWhile_cons, h, if_neg Bool.false_ne_true]

/-- A key begins with a character of its own, which is none of those around it. -/
theorem IsKey.exists_cons {key : String} (h : IsKey key) :
    ∃ c cs, key.toList = c :: cs ∧ ∀ d, isKeyChar d = false → c ≠ d := by
  obtain ⟨c, cs, hkey⟩ := List.exists_cons_of_ne_nil (mt String.toList_eq_nil_iff.1 h.1)
  refine ⟨c, cs, hkey, ?_⟩
  rintro d other rfl
  cases other.symm.trans (h.2 c (hkey ▸ List.mem_cons_self ..))

theorem IsKey.readKeyPart {key : String} (h : IsKey key)
    (stop : ∀ c ∈ rest.head?, isKeyChar c = false) :
    readKeyPart (key.toList ++ rest) = some (key, rest) := by
  obtain ⟨c, cs, hkey, other⟩ := h.exists_cons
  have split := span_append h.2 stop
  rw [hkey, List.cons_append] at split ⊢
  unfold Toml.readKeyPart
  split
  · next same => exact absurd (List.cons.inj same).1 (other '"' rfl)
  · next same => exact absurd (List.cons.inj same).1 (other '\'' rfl)
  · rw [split]
    dsimp only
    rw [← hkey, String.ofList_toList]

theorem IsKey.readKey {key : String} (h : IsKey key)
    (stop : ∀ c ∈ rest.head?, isKeyChar c = false)
    (last : ∀ c ∈ (skipSpaces rest).head?, c ≠ '.') :
    readKey room (key.toList ++ rest) = some ([], key, skipSpaces rest) := by
  obtain ⟨c, cs, hkey, other⟩ := h.exists_cons
  have start : skipSpaces (key.toList ++ rest) = key.toList ++ rest := by
    rw [hkey]
    refine skipSpaces_cons ?_ _
    simp [isSpace, other ' ' rfl, other '\t' rfl]
  rw [show room = 78 + 1 from rfl, Toml.readKey, start, h.readKeyPart stop]
  refine (Option.bind_some ..).trans ?_
  dsimp only
  split
  · next point => exact absurd rfl (last '.' (by rw [point]; rfl))
  · rfl

/-! ### Statements -/

theorem readStatement_entry {key : String} {text : List Char} {v : Value} (h : IsKey key)
    (value : Writes text v) (rest : List Char) :
    readStatement (key.toList ++ [' ', '=', ' '] ++ text ++ ['\n'] ++ rest) =
      some (.entry [] key v, rest) := by
  have parts : key.toList ++ [' ', '=', ' '] ++ text ++ ['\n'] ++ rest =
      key.toList ++ ' ' :: '=' :: ' ' :: (text ++ '\n' :: rest) := by simp
  have read : readKey room (key.toList ++ ' ' :: '=' :: ' ' :: (text ++ '\n' :: rest)) =
      some ([], key, '=' :: ' ' :: (text ++ '\n' :: rest)) :=
    h.readKey (by simp [isKeyChar]) (by simp [skipSpaces, isSpace])
  have blank : skipSpaces (' ' :: (text ++ '\n' :: rest)) = text ++ '\n' :: rest := by
    obtain ⟨c, cs, rfl, hc⟩ := value.head
    exact skipSpaces_cons hc _
  have entry : readEntry (readValue room)
        (key.toList ++ ' ' :: '=' :: ' ' :: (text ++ '\n' :: rest)) =
      some (([], key, v), '\n' :: rest) := by
    rw [readEntry, read]
    change (readValue room (skipSpaces (' ' :: (text ++ '\n' :: rest)))).bind _ = _
    rw [blank, value.read]
    rfl
  rw [parts]
  obtain ⟨c, cs, hkey, other⟩ := h.exists_cons
  rw [hkey, List.cons_append] at entry ⊢
  unfold readStatement
  split
  · next same => exact absurd (List.cons.inj same).1 (other '[' rfl)
  · next same => exact absurd (List.cons.inj same).1 (other '[' rfl)
  · rw [entry]
    rfl

theorem readStatement_table {key : String} (h : IsKey key) (rest : List Char) :
    readStatement ('[' :: key.toList ++ [']', '\n'] ++ rest) = some (.table [] key, rest) := by
  have parts : '[' :: key.toList ++ [']', '\n'] ++ rest =
    '[' :: (key.toList ++ ']' :: '\n' :: rest) := by simp
  have read : readKey room (key.toList ++ ']' :: '\n' :: rest) =
      some ([], key, ']' :: '\n' :: rest) :=
    h.readKey (by simp [isKeyChar]) (by simp [skipSpaces, isSpace])
  rw [parts]
  obtain ⟨c, cs, hkey, other⟩ := h.exists_cons
  rw [hkey, List.cons_append] at read ⊢
  rw [readStatement, read]
  · rfl
  · rintro r ⟨⟩
    exact other '[' rfl rfl

/-- The text makes the statements. -/
def Tells (text : List Char) (l : List Statement) : Prop :=
  ∀ fuel, text.length < fuel → Document.statementsOf? fuel text = some l

/-- The text makes the statements, whatever follows it. -/
def Says (text : List Char) (l : List Statement) : Prop :=
  ∀ rest ls, Tells rest ls → Tells (text ++ rest) (l ++ ls)

theorem tells_nil : Tells [] [] := by
  intro fuel enough
  obtain ⟨fuel, rfl⟩ := Nat.exists_eq_add_of_lt enough
  rfl

theorem Says.nil : Says [] [] := fun _ _ h => h

theorem Says.append {text text' : List Char} {l l' : List Statement} (h : Says text l)
    (h' : Says text' l') : Says (text ++ text') (l ++ l') := by
  intro rest ls more
  rw [List.append_assoc, List.append_assoc]
  exact h _ _ (h' _ _ more)

/-- An empty line says nothing. -/
theorem Says.blank : Says ['\n'] [] := by
  intro rest ls more fuel enough
  obtain ⟨fuel, rfl⟩ := Nat.exists_eq_add_of_lt enough
  exact more _ (by rw [List.singleton_append, List.length_cons]; omega)

theorem Says.statement {text : List Char} {s : Statement}
    (head : ∃ c cs, text = c :: cs ∧ c ∉ [' ', '\t', '\n', '\r', '#'])
    (read : ∀ rest, readStatement (text ++ rest) = some (s, rest)) : Says text [s] := by
  intro rest ls more fuel enough
  obtain ⟨fuel, rfl⟩ := Nat.exists_eq_add_of_lt enough
  obtain ⟨c, cs, rfl, hc⟩ := head
  have read := read rest
  -- the statement takes one unit of fuel, and at least one character
  have others := more ((c :: cs ++ rest).length + fuel) (by simp; omega)
  rw [List.cons_append] at *
  have start : skipSpaces (c :: (cs ++ rest)) = c :: (cs ++ rest) := by
    refine skipSpaces_cons ?_ _
    simp at hc
    simp [isSpace, hc]
  rw [Document.statementsOf?, start]
  -- the text begins neither with the end of a line nor with a comment, which the first cases need
  split
  · simp_all
  · simp_all
  · simp_all
  · simp_all
  · rw [read]
    change (Document.statementsOf? _ rest).bind _ = _
    rw [others]
    rfl

/-- A line with a key and a value says that the key has the value. -/
theorem Says.entry {key : String} {text : List Char} {v : Value} (h : IsKey key)
    (value : Writes text v) :
    Says (key.toList ++ [' ', '=', ' '] ++ text ++ ['\n']) [.entry [] key v] := by
  obtain ⟨c, cs, hkey, other⟩ := h.exists_cons
  refine .statement ⟨c, _, by rw [hkey]; rfl, ?_⟩ (readStatement_entry h value)
  simp [other ' ' rfl, other '\t' rfl, other '\n' rfl, other '\r' rfl, other '#' rfl]

theorem Says.table {key : String} (h : IsKey key) :
    Says ('[' :: key.toList ++ [']', '\n']) [.table [] key] :=
  .statement ⟨_, _, rfl, by decide⟩ (readStatement_table h)

end WorkerCluster.Toml
