import Mathlib.Tactic
import WorkerCluster.Toml.Quoted

/-!
# Quoted texts read back

A text is written in one of four forms. Which one it is depends on the quotes, line breaks and
control characters in it, and so does what has to be escaped.

* `Unescapes` is what the readers of the two forms in double quotes have in common: each takes back
  every character that `escape` writes.
* `Triple` is what the readers of the two long forms have in common: up to two quotes stand for
  themselves there, and three of them close the text.
* `Sparse` holds of a text in which no three quotes stand in a row, as in a long form without
  escapes.
* `read_write` is the main statement, for all four forms.
-/

namespace WorkerCluster.Toml.Quoted

/-- What follows does not begin with a quote. -/
def NoQuote (rest : List Char) : Prop := ∀ c ∈ rest.head?, c ≠ '"' ∧ c ≠ '\''

variable {c : Char} {cs rest : List Char}

/-! ### Characters -/

theorem eq_ofNat {n : ℕ} (h : c.toNat = n) : c = Char.ofNat n := by
  rw [← h, Char.ofNat_toNat]

theorem isPlain_of_not_isControl (control : isControl c = false) (line : c ≠ '\n') :
    isPlain c = true := by
  simp only [isControl, isPlain, Bool.or_eq_false_iff, Bool.and_eq_false_iff, bne_eq_false_iff_eq,
    decide_eq_false_iff_not, Bool.or_eq_true, Bool.and_eq_true, bne_iff_ne, decide_eq_true_eq]
    at control ⊢
  obtain ⟨(low | rfl) | rfl, delete⟩ := control
  · exact .inr ⟨by omega, delete⟩
  · exact .inl rfl
  · exact absurd rfl line

theorem toNat_lt_of_isControl (control : isControl c = true) : c.toNat < 128 := by
  simp only [isControl, Bool.or_eq_true, Bool.and_eq_true, decide_eq_true_eq] at control
  omega

/-- The code of a control character is read as the character. -/
theorem hexChar?_fixedUpper : ∀ n < 128, hexChar? (Hex.fixedUpper 4 n) = some (Char.ofNat n) := by
  decide

/-- A reader of what stands in double quotes takes back each character that `escape` writes. -/
structure Unescapes (long : Bool) (read : List Char → Option (List Char × List Char)) : Prop where
  letter : ∀ e c rest, unescape? e = some c → read ('\\' :: e :: rest) = before (some c) (read rest)
  code : ∀ a b c d rest,
    read ('\\' :: 'u' :: a :: b :: c :: d :: rest) = before (hexChar? [a, b, c, d]) (read rest)
  plain : ∀ c rest, isPlain c = true → c ≠ '"' → c ≠ '\\' →
    read (c :: rest) = before (some c) (read rest)
  line : long = true → ∀ rest, read ('\n' :: rest) = before (some '\n') (read rest)

theorem Unescapes.read_escape {long : Bool} {read : List Char → Option (List Char × List Char)}
    (h : Unescapes long read) (quote : c ≠ '"') (rest : List Char) :
    read (escape long c ++ rest) = before (some c) (read rest) := by
  unfold escape
  split_ifs with slash tab back bell feed line isLong control
  · exact slash ▸ h.letter '\\' _ rest rfl
  · exact tab ▸ h.letter 't' _ rest rfl
  · exact back ▸ h.letter 'r' _ rest rfl
  · exact eq_ofNat bell ▸ h.letter 'b' _ rest rfl
  · exact eq_ofNat feed ▸ h.letter 'f' _ rest rfl
  · exact line ▸ h.line isLong rest
  · exact line ▸ h.letter 'n' _ rest rfl
  · have digits := hexChar?_fixedUpper _ (toNat_lt_of_isControl control)
    rw [Char.ofNat_toNat] at digits
    exact (h.code _ _ _ _ rest).trans (congrArg (before · (read rest)) digits)
  · refine h.plain c rest (isPlain_of_not_isControl ?_ line) quote slash
    exact Bool.eq_false_iff.2 control

/-! ### One line -/

theorem unescapes_readBasic : Unescapes false readBasic where
  letter e c rest h := by
    unfold unescape? at h
    split at h <;> cases h <;> rfl
  code _ _ _ _ _ := rfl
  plain c rest plain quote slash := by
    rw [readBasic, if_pos plain]
    · exact quote
    all_goals
      intros
      contradiction
  line h := nomatch h

theorem readBasic_escapeAll (quotes : ℕ) (cs rest : List Char) :
    readBasic (escapeAll false quotes cs ++ '"' :: rest) = some (cs, rest) := by
  induction cs generalizing quotes with
  | nil => rfl
  | cons c cs ih =>
    rw [escapeAll]
    split
    · next quote =>
      -- on one line every quote is escaped, however many have come before
      rw [Bool.false_and, if_neg Bool.false_ne_true]
      refine (unescapes_readBasic.letter '"' '"' (escapeAll false 0 cs ++ '"' :: rest) rfl).trans ?_
      rw [ih, quote]
      rfl
    · next quote =>
      rw [List.append_assoc, unescapes_readBasic.read_escape quote, ih]
      rfl

theorem readLiteral_append (plain : ∀ c ∈ cs, isPlain c = true ∧ c ≠ '\'') (rest : List Char) :
    readLiteral (cs ++ '\'' :: rest) = some (cs, rest) := by
  induction cs with
  | nil => rfl
  | cons c cs ih =>
    obtain ⟨first, others⟩ := List.forall_mem_cons.1 plain
    rw [List.cons_append, readLiteral, if_pos first.1, ih others]
    · rfl
    · exact first.2

/-! ### Several lines -/

theorem unescapes_readLongBasic : Unescapes true (readLongBasic false) where
  letter e c rest h := by
    unfold unescape? at h
    split at h <;> cases h <;> rfl
  code _ _ _ _ _ := rfl
  plain c rest plain quote slash := by
    have back : c ≠ '\r' := by
      rintro rfl
      cases plain
    rw [readLongBasic, if_pos (by rw [plain]; rfl)]
    all_goals grind
  line _ _ := rfl

/-- A reader of what stands between three quotes each takes one or two of them for themselves. -/
structure Triple (quote : Char) (read : List Char → Option (List Char × List Char)) : Prop where
  single : ∀ next, (∀ r, next ≠ quote :: quote :: r) →
    read (quote :: next) = before (some quote) (read next)
  close : ∀ count ≤ 2, ∀ rest, (∀ r, rest ≠ quote :: r) →
    read (List.replicate count quote ++ quote :: quote :: quote :: rest) =
      some (List.replicate count quote, rest)

theorem triple_readLongBasic : Triple '"' (readLongBasic false) where
  single next h := by
    rw [readLongBasic, if_pos (by decide)]
    all_goals grind
  close count few rest h := by
    match count, few with
    | 0, _ =>
      rw [List.replicate_zero, List.nil_append, readLongBasic]
      all_goals grind
    | 1, _ =>
      rw [List.replicate_one, List.singleton_append, readLongBasic]
      all_goals grind
    | 2, _ => rfl

theorem triple_readLongLiteral : Triple '\'' readLongLiteral where
  single next h := by
    rw [readLongLiteral, if_pos (by decide)]
    all_goals grind
  close count few rest h := by
    match count, few with
    | 0, _ =>
      rw [List.replicate_zero, List.nil_append, readLongLiteral]
      all_goals grind
    | 1, _ =>
      rw [List.replicate_one, List.singleton_append, readLongLiteral]
      all_goals grind
    | 2, _ => rfl

/-- Up to two quotes before another character stand for themselves. -/
theorem Triple.read_replicate {quote : Char} {read : List Char → Option (List Char × List Char)}
    (h : Triple quote read) {count : ℕ} (few : count ≤ 2) (other : c ≠ quote)
    {cs' : List Char} (next : read (c :: rest) = some (cs, cs')) :
    read (List.replicate count quote ++ c :: rest) =
      some (List.replicate count quote ++ cs, cs') := by
  match count, few with
  | 0, _ => exact next
  | 1, _ =>
    refine (h.single (c :: rest) fun r e => other (List.cons.inj e).1).trans ?_
    rw [next]
    rfl
  | 2, _ =>
    refine (h.single (quote :: c :: rest) fun r e => other ?_).trans ?_
    · exact (List.cons.inj (List.cons.inj e).2).1
    · rw [h.single (c :: rest) fun r e => other (List.cons.inj e).1, next]
      rfl

/-- What is written for a character other than a quote begins with no quote, and with no line break
unless it is one. -/
theorem exists_escape (long : Bool) (quote : c ≠ '"') :
    ∃ d ds, escape long c = d :: ds ∧ d ≠ '"' ∧ d ≠ '\r' ∧ (c ≠ '\n' → d ≠ '\n') := by
  unfold escape
  split_ifs with slash tab back bell feed line isLong control
  any_goals exact ⟨'\\', _, rfl, by decide, by decide, fun _ => by decide⟩
  · exact ⟨'\n', [], rfl, by decide, by decide, fun other => absurd line other⟩
  · exact ⟨c, [], rfl, quote, back, id⟩

/-- Up to two quotes have been written as they are, and are read together with what follows. -/
theorem readLongBasic_escapeAll (quotes : ℕ) (few : quotes ≤ 2) (cs : List Char)
    (closed : NoQuote rest) :
    readLongBasic false (List.replicate quotes '"' ++ (escapeAll true quotes cs ++
      '"' :: '"' :: '"' :: rest)) = some (List.replicate quotes '"' ++ cs, rest) := by
  induction cs generalizing quotes with
  | nil =>
    rw [List.append_nil]
    refine triple_readLongBasic.close quotes few rest ?_
    rintro r rfl
    exact (closed '"' rfl).1 rfl
  | cons c cs ih =>
    have others := ih 0 (by omega)
    rw [List.replicate_zero, List.nil_append, List.nil_append] at others
    rw [escapeAll]
    split
    · next quote =>
      subst quote
      by_cases fewer : quotes < 2
      · -- one more quote that is written as it is
        have next := ih (quotes + 1) fewer
        rw [List.replicate_succ', List.append_assoc, List.append_assoc] at next
        rw [decide_eq_true fewer, Bool.true_and, if_pos rfl]
        exact next
      · -- the third one in a row is escaped, and the count begins again
        rw [decide_eq_false fewer, Bool.and_false, if_neg Bool.false_ne_true]
        refine triple_readLongBasic.read_replicate few (by decide) ?_
        refine (unescapes_readLongBasic.letter '"' '"' (escapeAll true 0 cs ++ _) rfl).trans ?_
        rw [others]
        rfl
    · next quote =>
      obtain ⟨d, ds, written, other, -⟩ := exists_escape true quote
      have read := unescapes_readLongBasic.read_escape quote
        (escapeAll true 0 cs ++ '"' :: '"' :: '"' :: rest)
      rw [others, written] at read
      rw [List.append_assoc, written]
      exact triple_readLongBasic.read_replicate few other read

/-- At most two quotes stand in a row, where so many come before the text. -/
def Sparse (quote : Char) : (quotes : ℕ) → List Char → Prop
  | _, [] => True
  | quotes, c :: cs =>
    if c = quote then quotes < 2 ∧ Sparse quote (quotes + 1) cs else Sparse quote 0 cs

theorem le_longestRun (quote : Char) (cs : List Char) (best run : ℕ) :
    best ≤ (cs.foldl (fun (best, run) d =>
      if d = quote then (max best (run + 1), run + 1) else (best, 0)) (best, run)).1 := by
  induction cs generalizing best run with
  | nil => exact le_rfl
  | cons c cs ih =>
    rw [List.foldl_cons]
    dsimp only
    split
    · exact (le_max_left ..).trans (ih ..)
    · exact ih ..

theorem sparse_of_longestRun {quote : Char} (h : longestRun quote cs ≤ 2) : Sparse quote 0 cs := by
  -- the run that has been counted so far stands for the quotes before the text
  suffices ∀ best run, (cs.foldl (fun (best, run) d =>
      if d = quote then (max best (run + 1), run + 1) else (best, 0)) (best, run)).1 ≤ 2 →
      Sparse quote run cs from this 0 0 h
  clear h
  induction cs with
  | nil => exact fun _ _ _ => trivial
  | cons c cs ih =>
    intro best run h
    rw [List.foldl_cons] at h
    dsimp only at h
    rw [Sparse]
    split at h
    · next same =>
      have reached := (le_max_right best (run + 1)).trans ((le_longestRun ..).trans h)
      rw [if_pos same]
      exact ⟨reached, ih _ _ h⟩
    · next other =>
      rw [if_neg other]
      exact ih _ _ h

theorem readLongLiteral_append (quotes : ℕ) (few : quotes ≤ 2)
    (control : ∀ c ∈ cs, isControl c = false) (sparse : Sparse '\'' quotes cs)
    (closed : NoQuote rest) :
    readLongLiteral (List.replicate quotes '\'' ++ (cs ++ '\'' :: '\'' :: '\'' :: rest)) =
      some (List.replicate quotes '\'' ++ cs, rest) := by
  induction cs generalizing quotes with
  | nil =>
    rw [List.append_nil]
    refine triple_readLongLiteral.close quotes few rest ?_
    rintro r rfl
    exact (closed '\'' rfl).2 rfl
  | cons c cs ih =>
    obtain ⟨first, others⟩ := List.forall_mem_cons.1 control
    rw [Sparse] at sparse
    split at sparse
    · next quote =>
      subst quote
      have next := ih (quotes + 1) sparse.1 others sparse.2
      rw [List.replicate_succ', List.append_assoc, List.append_assoc] at next
      exact next
    · next quote =>
      have next := ih 0 (by omega) others sparse
      rw [List.replicate_zero, List.nil_append, List.nil_append] at next
      refine triple_readLongLiteral.read_replicate few quote ?_
      -- a carriage return would be read as part of a line break, but it is a control character
      have back : c ≠ '\r' := by
        rintro rfl
        cases first
      have stands : (isPlain c || c = '\n') = true := by
        rw [Bool.or_eq_true, decide_eq_true_eq]
        exact or_iff_not_imp_right.2 (isPlain_of_not_isControl first)
      rw [readLongLiteral, if_pos stands]
      · exact congrArg (before (some c)) next
      all_goals grind

/-! ### All forms -/

theorem of_form_literal (h : form cs = .literal) : ∀ c ∈ cs, isPlain c = true ∧ c ≠ '\'' := by
  unfold form at h
  dsimp only at h
  split_ifs at h with basic literal
  simp only [Bool.and_eq_true, Bool.not_eq_true'] at literal
  obtain ⟨⟨control, quote⟩, line⟩ := literal
  have absent {d : Char} (h : cs.contains d = false) : ∀ c ∈ cs, c ≠ d := by
    rintro c hc rfl
    exact Bool.false_ne_true (h.symm.trans (List.contains_iff_mem.2 hc))
  intro c hc
  have plain : isControl c = false := Bool.eq_false_iff.2 (List.any_eq_false.1 control c hc)
  exact ⟨isPlain_of_not_isControl plain (absent line c hc), absent quote c hc⟩

theorem of_form_longLiteral (h : form cs = .longLiteral) :
    (∀ c ∈ cs, isControl c = false) ∧ longestRun '\'' cs ≤ 2 := by
  unfold form at h
  dsimp only at h
  split_ifs at h with basic literal longBasic longLiteral
  rw [Bool.and_eq_true, Bool.not_eq_true', decide_eq_true_eq] at longLiteral
  exact ⟨fun c hc => Bool.eq_false_iff.2 (List.any_eq_false.1 longLiteral.1 c hc), longLiteral.2⟩

/-- The line break after the opening quotes is passed over, and no other. -/
theorem afterLead_lead {text : List Char}
    (h : '\n' ∉ cs → ∀ c ∈ text.head?, c ≠ '\n' ∧ c ≠ '\r') :
    afterLead (lead cs ++ text) = text := by
  unfold lead
  split
  · rfl
  · next none =>
    have head := h fun mem => none (List.contains_iff_mem.2 mem)
    rw [List.nil_append]
    unfold afterLead
    split
    · exact absurd rfl (head _ rfl).1
    · exact absurd rfl (head _ rfl).2
    · rfl

/-- What is written in double quotes begins with no line break that the text does not have, and on
one line with no quote. -/
theorem head_escapeAll (long : Bool) {quotes : ℕ} (h : c ∈ (escapeAll long quotes cs).head?) :
    (long = false → c ≠ '"') ∧ c ≠ '\r' ∧ ('\n' ∉ cs → c ≠ '\n') := by
  cases cs with
  | nil => cases h
  | cons d cs =>
    rw [escapeAll] at h
    split_ifs at h with quote few
    · cases h
      refine ⟨fun short => ?_, by decide, fun _ => by decide⟩
      rw [short] at few
      cases few
    · cases h
      exact ⟨fun _ => by decide, by decide, fun _ => by decide⟩
    · obtain ⟨e, es, written, other, back, same⟩ := exists_escape long quote
      rw [written] at h
      cases h
      exact ⟨fun _ => other, back, fun line => same fun h => line (h ▸ List.mem_cons_self ..)⟩

theorem head_append {quote : Char} (h : c ∈ (cs ++ quote :: rest).head?) :
    c ∈ cs.head? ∨ c = quote := by
  cases cs with
  | nil => exact .inr (Option.some.inj h).symm
  | cons d cs => exact .inl h

/-- One quote opens a short form, unless two more follow. -/
theorem read_basic {text : List Char} (h : ∀ r, text ≠ '"' :: '"' :: r) :
    read ('"' :: text) = readBasic text := by
  rw [read]
  rintro r rfl
  exact h r rfl

theorem read_literal {text : List Char} (h : ∀ r, text ≠ '\'' :: '\'' :: r) :
    read ('\'' :: text) = readLiteral text := by
  rw [read]
  rintro r rfl
  exact h r rfl

/-- Between two quotes on one line there is none, and none follows the second one. -/
theorem ne_two_quotes {quote : Char} (inside : ∀ c ∈ cs.head?, c ≠ quote)
    (after : ∀ c ∈ rest.head?, c ≠ quote) (r : List Char) :
    cs ++ quote :: rest ≠ quote :: quote :: r := by
  intro h
  cases cs with
  | nil => exact after quote (by rw [(List.cons.inj h).2]; rfl) rfl
  | cons c cs => exact inside c rfl (List.cons.inj h).1

/-- **A text is read back from what is written of it**, if no quote follows. -/
theorem read_write (cs : List Char) (closed : NoQuote rest) :
    read (write cs ++ rest) = some (cs, rest) := by
  unfold write
  split
  · rw [List.append_assoc, List.cons_append, List.singleton_append, read_basic]
    · exact readBasic_escapeAll 0 cs rest
    · exact ne_two_quotes (fun c hc => (head_escapeAll false hc).1 rfl) fun c hc => (closed c hc).1
  · next literal =>
    have plain := of_form_literal literal
    rw [List.append_assoc, List.cons_append, List.singleton_append, read_literal]
    · exact readLiteral_append plain rest
    · refine ne_two_quotes (fun c hc => (plain c ?_).2) fun c hc => (closed c hc).2
      exact List.mem_of_mem_head? hc
  · have closing : ['"', '"', '"'] ++ rest = '"' :: '"' :: '"' :: rest := rfl
    rw [List.append_assoc, List.append_assoc, List.append_assoc, closing]
    refine (congrArg (readLongBasic false) (afterLead_lead fun line c hc => ?_)).trans
      (readLongBasic_escapeAll 0 (Nat.zero_le 2) cs closed)
    obtain hc | rfl := head_append hc
    · exact ⟨(head_escapeAll true hc).2.2 line, (head_escapeAll true hc).2.1⟩
    · decide
  · next literal =>
    obtain ⟨control, short⟩ := of_form_longLiteral literal
    have closing : ['\'', '\'', '\''] ++ rest = '\'' :: '\'' :: '\'' :: rest := rfl
    rw [List.append_assoc, List.append_assoc, List.append_assoc, closing]
    refine (congrArg readLongLiteral (afterLead_lead fun line c hc => ?_)).trans
      (readLongLiteral_append 0 (Nat.zero_le 2) control (sparse_of_longestRun short) closed)
    obtain hc | rfl := head_append hc
    · have mem := List.mem_of_mem_head? hc
      refine ⟨fun h => line (h ▸ mem), ?_⟩
      rintro rfl
      cases control _ mem
    · decide

/-- What is written begins with a quote. -/
theorem exists_write (cs : List Char) : ∃ q r, write cs = q :: r ∧ (q = '"' ∨ q = '\'') := by
  unfold write
  split
  · exact ⟨_, _, rfl, .inl rfl⟩
  · exact ⟨_, _, rfl, .inr rfl⟩
  · exact ⟨_, _, rfl, .inl rfl⟩
  · exact ⟨_, _, rfl, .inr rfl⟩

end WorkerCluster.Toml.Quoted
