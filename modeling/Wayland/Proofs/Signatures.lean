import Mathlib.Data.List.TakeWhile
import Mathlib.Tactic.Common
import Wayland.Signature

/-! # The language of signatures

A signature is written as its version in decimal digits, which may be missing, and then its
arguments, a letter each with an optional question mark before it.  The grammar is given by the
writer: a text of letters is well formed if some list of arguments is written so, and a beginning
is viable if something well formed goes on from it.

* `letters_cons_inj`: what is written is read back in one way only.
* `reads_readTags`, `Reads.unique`: reading letters gives what the grammar says, and nothing else.
* `parse_exact`: the same for whole signatures, with each cause of a refusal.
-/

namespace Wayland

/-! ## Writing -/

/-- The question mark of an argument that may be null. -/
def ArgSpec.mark (nullable : Bool) : List Char := if nullable then ['?'] else []

/-- An argument as it is written. -/
def ArgSpec.render (a : ArgSpec) : List Char := mark a.nullable ++ [a.kind.tag]

@[simp]
theorem ArgKind.ofTag?_tag (kind : ArgKind) : ofTag? kind.tag = some kind := by
  cases kind <;> rfl

theorem ArgKind.tag_of_ofTag? {tag : Char} {kind : ArgKind} (known : ofTag? tag = some kind) :
    kind.tag = tag := by
  unfold ofTag? at known
  split at known <;> cases known <;> rfl

theorem ArgKind.tag_ne_mark (kind : ArgKind) : kind.tag ≠ '?' := by
  cases kind <;> decide

theorem ArgKind.isDigit_tag (kind : ArgKind) : kind.tag.isDigit = false := by
  cases kind <;> rfl

theorem ArgKind.tag_eq_iff (kind : ArgKind) : kind.tag = 'h' ↔ kind = .fd := by
  cases kind <;> decide

namespace Signature

/-- The letters of some arguments. -/
def letters (args : List ArgSpec) : List Char := args.flatMap ArgSpec.render

/-- Something well formed goes on from these letters. -/
def Viable (cs : List Char) : Prop := ∃ more args, cs ++ more = letters args

/-- The version that the digits in front stand for: 1 if there are none. -/
def version (digits : List Char) : Nat :=
  if digits = [] then 1 else Nat.ofDigitChars 10 digits 0

/-- A signature as it is written. -/
def render (s : Signature) : String :=
  String.ofList (Nat.toDigits 10 s.since.toNat ++ letters s.args)

/-- The arguments that letters name, with no care for what is between them: unknown letters are
    passed over, and question marks in a row count as one. -/
def scan : Bool → List Char → List ArgSpec
  | _, [] => []
  | marked, tag :: rest =>
    if tag = '?' then scan true rest
    else
      match ArgKind.ofTag? tag with
      | none => scan marked rest
      | some kind => ⟨kind, marked⟩ :: scan false rest

variable {a : ArgSpec} {args : List ArgSpec} {cs before after : List Char} {tag : Char}
  {marked : Bool}

@[simp]
theorem letters_cons : letters (a :: args) = a.render ++ letters args := rfl

theorem scan_letters (args : List ArgSpec) : scan false (letters args) = args := by
  induction args with
  | nil => rfl
  | cons a rest ih =>
    cases a with
    | mk kind nullable =>
      have plain := kind.tag_ne_mark
      cases nullable <;> simp [ArgSpec.render, ArgSpec.mark, scan, plain, ih]

theorem letters_injective : Function.Injective letters :=
  Function.LeftInverse.injective scan_letters

theorem Viable.of_append (viable : Viable (before ++ after)) : Viable before := by
  obtain ⟨more, args, whole⟩ := viable
  exact ⟨after ++ more, args, by rw [← List.append_assoc, whole]⟩

theorem viable_letters (args : List ArgSpec) : Viable (letters args) :=
  ⟨[], args, List.append_nil _⟩

/-- A question mark and the letter after it cannot be taken apart in two ways. -/
theorem mark_append_inj {m n : Bool} {c d : Char} {cs ds : List Char}
    (plain : c = '?' → m = true) (letter : d ≠ '?')
    (same : ArgSpec.mark m ++ c :: cs = ArgSpec.mark n ++ d :: ds) : m = n ∧ c = d ∧ cs = ds := by
  cases m <;> cases n <;> simp_all [ArgSpec.mark]
  exact absurd same.1.symm letter

theorem letters_cons_inj :
    a.render ++ cs = letters args ↔ ∃ rest, args = a :: rest ∧ cs = letters rest := by
  constructor
  · intro same
    cases args with
    | nil => simp [letters, ArgSpec.render] at same
    | cons b rest =>
      simp only [letters_cons, ArgSpec.render, List.append_assoc, List.singleton_append] at same
      obtain ⟨marks, tags, rests⟩ := mark_append_inj
        (fun mark => absurd mark a.kind.tag_ne_mark) b.kind.tag_ne_mark same
      have kinds : a.kind = b.kind := by
        simpa [ArgKind.ofTag?_tag] using congrArg ArgKind.ofTag? tags
      obtain rfl : a = b := by
        cases a
        cases b
        simp_all
      exact ⟨rest, rfl, rests⟩
  · rintro ⟨rest, rfl, rfl⟩
    rfl

theorem viable_render_append : Viable (a.render ++ cs) ↔ Viable cs := by
  constructor
  · rintro ⟨more, args, whole⟩
    rw [List.append_assoc, letters_cons_inj] at whole
    obtain ⟨rest, _, tail⟩ := whole
    exact ⟨more, rest, tail⟩
  · rintro ⟨more, args, whole⟩
    exact ⟨more, a :: args, by rw [List.append_assoc, whole, letters_cons]⟩

theorem viable_letters_append : Viable (letters args ++ cs) ↔ Viable cs := by
  induction args with
  | nil => rfl
  | cons a rest ih => rw [letters_cons, List.append_assoc, viable_render_append, ih]

theorem viable_mark (marked : Bool) : Viable (ArgSpec.mark marked) :=
  ⟨[ArgKind.tag .uint], [⟨.uint, marked⟩], by simp [letters, ArgSpec.render]⟩

theorem mark_ne_letters : ArgSpec.mark true ≠ letters args := by
  cases args with
  | nil => simp [letters, ArgSpec.mark]
  | cons b rest =>
    cases marks : b.nullable <;> simp [ArgSpec.mark, ArgSpec.render, marks]
    exact fun mark => absurd mark.symm b.kind.tag_ne_mark

/-- A letter that names no kind goes nowhere, and neither does a second question mark. -/
theorem not_viable_unknown (unknown : ArgKind.ofTag? tag = none)
    (plain : tag = '?' → marked = true) : ¬ Viable (ArgSpec.mark marked ++ [tag]) := by
  rintro ⟨more, args, whole⟩
  cases args with
  | nil => simp [letters] at whole
  | cons b rest =>
    simp only [letters_cons, ArgSpec.render, List.append_assoc, List.singleton_append] at whole
    obtain ⟨_, rfl, _⟩ := mark_append_inj plain b.kind.tag_ne_mark whole
    simp at unknown

/-! ## Reading -/

/-- What reading letters comes to by the grammar. -/
inductive Reads (cs : List Char) : Except TagFault (List ArgSpec) → Prop
  | whole {args : List ArgSpec} (all : cs = letters args) : Reads cs (.ok args)
  | unknown {before after : List Char} {tag : Char} (split : cs = before ++ tag :: after)
      (viable : Viable before) (stuck : ¬ Viable (before ++ [tag])) :
      Reads cs (.error (.unknown tag))
  | dangling (viable : Viable cs) (unfinished : ∀ args, cs ≠ letters args) :
      Reads cs (.error .dangling)

theorem reads_readTags (marked : Bool) (cs : List Char) :
    Reads (ArgSpec.mark marked ++ cs) (readTags marked cs) := by
  -- The flag of the reader stands for a question mark that has been read already.
  fun_induction readTags marked cs with
  | case1 => exact .whole rfl
  | case2 =>
    rw [List.append_nil]
    exact .dangling (viable_mark true) fun _ => mark_ne_letters
  | case3 marked tag rest mark ih =>
    obtain ⟨rfl, rfl⟩ : tag = '?' ∧ marked = false := by simpa using mark
    exact ih
  | case4 marked tag rest mark unknown =>
    refine .unknown rfl (viable_mark marked) (not_viable_unknown unknown ?_)
    simpa using mark
  | case5 marked tag rest mark kind known args read ih =>
    obtain rfl := ArgKind.tag_of_ofTag? known
    rw [read] at ih
    cases ih with
    | whole all => exact .whole (by simp_all [ArgSpec.render, ArgSpec.mark])
  | case6 marked tag rest mark kind known fault read ih =>
    obtain rfl := ArgKind.tag_of_ofTag? known
    have item :
        ArgSpec.mark marked ++ kind.tag :: rest = ArgSpec.render ⟨kind, marked⟩ ++ rest := by
      simp [ArgSpec.render]
    rw [read] at ih
    rw [item]
    -- A fault further on is the same fault here, as an argument before it changes nothing.
    cases ih with
    | unknown split viable stuck =>
      refine .unknown (by rw [show rest = _ from split, ← List.append_assoc])
        (viable_render_append.2 viable) ?_
      rwa [List.append_assoc, viable_render_append]
    | dangling viable unfinished =>
      refine .dangling (viable_render_append.2 viable) fun args whole => ?_
      obtain ⟨tail, _, rests⟩ := letters_cons_inj.1 whole
      exact unfinished tail rests

/-- The first letter that goes nowhere is one letter only. -/
theorem stuck_unique {before' after' : List Char} {tag' : Char}
    (same : before ++ tag :: after = before' ++ tag' :: after')
    (viable : Viable before) (stuck : ¬ Viable (before ++ [tag]))
    (viable' : Viable before') (stuck' : ¬ Viable (before' ++ [tag'])) : tag = tag' := by
  -- If one beginning is longer, the letter at which the other is stuck is part of it.
  obtain ⟨more, rfl, rest⟩ | ⟨more, rfl, rest⟩ := List.append_eq_append_iff.1 same
  · cases more with
    | nil => exact (List.cons.inj rest).1
    | cons c more =>
      obtain ⟨rfl, _⟩ := List.cons.inj rest
      exact absurd (Viable.of_append (by simpa using viable')) stuck
  · cases more with
    | nil => exact (List.cons.inj rest).1.symm
    | cons c more =>
      obtain ⟨rfl, _⟩ := List.cons.inj rest
      exact absurd (Viable.of_append (by simpa using viable)) stuck'

theorem Reads.viable {args : List ArgSpec} (reads : Reads cs (.ok args)) : Viable cs := by
  cases reads with
  | whole all => exact all ▸ viable_letters args

theorem Reads.not_viable (reads : Reads cs (.error (.unknown tag))) : ¬ Viable cs := by
  cases reads with
  | unknown split viable stuck =>
    intro whole
    rw [split, List.append_cons] at whole
    exact stuck whole.of_append

theorem Reads.unique {r r' : Except TagFault (List ArgSpec)} (one : Reads cs r)
    (other : Reads cs r') : r = r' := by
  -- Texts with an unknown letter are not viable, the others are; of these, some are whole.
  cases one with
  | whole all =>
    cases other with
    | whole all' => rw [letters_injective (all.symm.trans all')]
    | unknown split viable stuck =>
      exact absurd (Reads.whole all).viable (Reads.unknown split viable stuck).not_viable
    | dangling viable unfinished => exact absurd all (unfinished _)
  | unknown split viable stuck =>
    cases other with
    | whole all =>
      exact absurd (Reads.whole all).viable (Reads.unknown split viable stuck).not_viable
    | unknown split' viable' stuck' =>
      rw [stuck_unique (split.symm.trans split') viable stuck viable' stuck']
    | dangling whole _ => exact absurd whole (Reads.unknown split viable stuck).not_viable
  | dangling whole unfinished =>
    cases other with
    | whole all => exact absurd all (unfinished _)
    | unknown split viable stuck =>
      exact absurd whole (Reads.unknown split viable stuck).not_viable
    | dangling => rfl

theorem readTags_eq_iff {r : Except TagFault (List ArgSpec)} :
    readTags false cs = r ↔ Reads cs r :=
  ⟨fun read => read ▸ reads_readTags false cs, (reads_readTags false cs).unique⟩

theorem readTags_ok_iff : readTags false cs = .ok args ↔ cs = letters args := by
  rw [readTags_eq_iff]
  exact ⟨fun reads => by cases reads with | whole all => exact all, .whole⟩

/-! ## Counting -/

theorem countP_letters (args : List ArgSpec) : (letters args).countP (· ≠ '?') = args.length := by
  induction args with
  | nil => rfl
  | cons a rest ih =>
    have plain := a.kind.tag_ne_mark
    cases marks : a.nullable <;>
      simp_all [ArgSpec.render, ArgSpec.mark]

theorem count_letters (s : Signature) : (letters s.args).count 'h' = s.fdCount := by
  obtain ⟨since, args⟩ := s
  induction args with
  | nil => rfl
  | cons a rest ih =>
    simp only [fdCount] at ih
    cases marks : a.nullable <;> by_cases fd : a.kind = .fd <;>
      simp [ArgSpec.render, ArgSpec.mark, marks, fd, fdCount, List.count_cons, ih, Nat.add_comm,
        ArgKind.tag_eq_iff]

/-! ## Versions -/

theorem digitsValue_eq (digits : List Char) :
    Text.digitsValue digits = Nat.ofDigitChars 10 digits 0 := by
  simp [Text.digitsValue, Nat.ofDigitChars, Nat.mul_comm]

theorem sinceOf?_eq (digits : List Char) :
    sinceOf? digits =
      if version digits < UInt32.size then some (UInt32.ofNat (version digits)) else none := by
  cases digits with
  | nil => rfl
  | cons d ds => simp [sinceOf?, version, digitsValue_eq]

theorem sinceOf?_eq_some {digits : List Char} {since : UInt32} :
    sinceOf? digits = some since ↔ since.toNat = version digits := by
  rw [sinceOf?_eq]
  split
  · next fits =>
    rw [Option.some.injEq, ← UInt32.toNat_inj, UInt32.toNat_ofNat_of_lt' fits, eq_comm]
  · next large =>
    -- No 32-bit number equals a version this large.
    refine iff_of_false (Option.some_ne_none since).symm fun same => large ?_
    exact same ▸ since.toNat_lt_size

theorem sinceOf?_eq_none {digits : List Char} :
    sinceOf? digits = none ↔ UInt32.size ≤ version digits := by
  simp [sinceOf?_eq]

theorem version_toDigits (n : Nat) : version (Nat.toDigits 10 n) = n := by
  rw [version, if_neg Nat.toDigits_ne_nil, Nat.ofDigitChars_ten_toDigits]

theorem isDigit_of_mem_letters {c : Char} (member : c ∈ letters args) : c.isDigit = false := by
  obtain ⟨a, _, written⟩ := List.mem_flatMap.1 member
  obtain marks | rfl : c ∈ ArgSpec.mark a.nullable ∨ c = a.kind.tag := by
    simpa [ArgSpec.render] using written
  · obtain rfl : c = '?' := by
      cases marked : a.nullable <;> simp_all [ArgSpec.mark]
    rfl
  · exact a.kind.isDigit_tag

/-- The digits of a version end where the letters begin. -/
theorem split_render (n : Nat) (args : List ArgSpec) :
    (Nat.toDigits 10 n ++ letters args).takeWhile Char.isDigit = Nat.toDigits 10 n ∧
      (Nat.toDigits 10 n ++ letters args).dropWhile Char.isDigit = letters args := by
  have digits (c : Char) (member : c ∈ Nat.toDigits 10 n) : c.isDigit = true :=
    Nat.isDigit_of_mem_toDigits (by decide) (by decide) member
  rw [List.takeWhile_append_of_pos digits, List.dropWhile_append_of_pos digits]
  cases written : letters args with
  | nil => simp
  | cons c rest =>
    have plain : c.isDigit = false := isDigit_of_mem_letters (written ▸ List.mem_cons_self)
    simp [plain]

/-! ## Signatures -/

theorem parse_ok_iff {text : String} {s : Signature} :
    parse text = .ok s ↔ s.since.toNat = version (text.toList.takeWhile Char.isDigit) ∧
      text.toList.dropWhile Char.isDigit = letters s.args := by
  obtain ⟨since, args⟩ := s
  rw [← sinceOf?_eq_some, ← readTags_ok_iff, parse]
  cases given : sinceOf? (text.toList.takeWhile Char.isDigit) with
  | none => simp
  | some value =>
    cases read : readTags false (text.toList.dropWhile Char.isDigit) with
    | ok found => simp
    | error fault => cases fault <;> simp

theorem parse_error_iff {text : String} {e : SignatureError} :
    let digits := text.toList.takeWhile Char.isDigit
    let tags := text.toList.dropWhile Char.isDigit
    parse text = .error e ↔
      UInt32.size ≤ version digits ∧ e = .invalidSince text ∨
      version digits < UInt32.size ∧
        ((∃ tag, Reads tags (.error (.unknown tag)) ∧ e = .unknownTag tag text) ∨
          Reads tags (.error .dangling) ∧ e = .danglingNullable text) := by
  intro digits tags
  rw [← sinceOf?_eq_none, ← Nat.not_le, ← sinceOf?_eq_none]
  simp only [← readTags_eq_iff, parse]
  cases given : sinceOf? digits with
  | none => simp [eq_comm]
  | some value =>
    cases read : readTags false tags with
    | ok found => simp
    | error fault => cases fault <;> simp [eq_comm]

theorem parse_render (s : Signature) : parse (render s) = .ok s := by
  rw [parse_ok_iff, render, String.toList_ofList, (split_render _ _).1, (split_render _ _).2,
    version_toDigits]
  exact ⟨rfl, rfl⟩

theorem reads_unknown_iff : Reads cs (.error (.unknown tag)) ↔
    ∃ before after, cs = before ++ tag :: after ∧ Viable before ∧ ¬ Viable (before ++ [tag]) := by
  constructor
  · intro reads
    cases reads with
    | unknown split viable stuck => exact ⟨_, _, split, viable, stuck⟩
  · rintro ⟨before, after, split, viable, stuck⟩
    exact .unknown split viable stuck

theorem reads_dangling_iff : Reads cs (.error .dangling) ↔
    Viable cs ∧ ∀ args, cs ≠ letters args := by
  constructor
  · intro reads
    cases reads with
    | dangling viable unfinished => exact ⟨viable, unfinished⟩
  · rintro ⟨viable, unfinished⟩
    exact .dangling viable unfinished

/-- A text is a signature exactly if it is the digits of a version that fits 32 bits, or none, and
    then the letters of some arguments; these are what reading it gives, and the counts go by the
    letters.  Otherwise the cause is the version if it does not fit, or else the first letter from
    which nothing well formed can go on, or else that the text ends in a question mark. -/
theorem parse_exact (text : String) :
    let digits := text.toList.takeWhile Char.isDigit
    let tags := text.toList.dropWhile Char.isDigit
    (∀ s, parse text = .ok s ↔ s.since.toNat = version digits ∧ tags = letters s.args) ∧
    (∀ s, parse text = .ok s → s.args = scan false tags ∧
      s.args.length = tags.countP (· ≠ '?') ∧ s.fdCount = tags.count 'h') ∧
    (∀ e, parse text = .error e ↔
      UInt32.size ≤ version digits ∧ e = .invalidSince text ∨
      version digits < UInt32.size ∧
        ((∃ tag, (∃ before after, tags = before ++ tag :: after ∧ Viable before ∧
            ¬ Viable (before ++ [tag])) ∧ e = .unknownTag tag text) ∨
          (Viable tags ∧ ∀ args, tags ≠ letters args) ∧ e = .danglingNullable text)) ∧
    (∀ args after, tags = letters args ++ '?' :: '?' :: after → version digits < UInt32.size →
      parse text = .error (.unknownTag '?' text)) ∧
    ∀ s, parse (render s) = .ok s := by
  intro digits tags
  refine ⟨fun s => parse_ok_iff, fun s read => ?_, fun e => ?_, fun args after twice fits => ?_,
    parse_render⟩
  · rw [show tags = letters s.args from (parse_ok_iff.1 read).2]
    exact ⟨(scan_letters _).symm, (countP_letters _).symm, (count_letters s).symm⟩
  · simpa only [reads_unknown_iff, reads_dangling_iff] using parse_error_iff
  · refine parse_error_iff.2 (.inr ⟨fits, .inl ⟨'?', ?_, rfl⟩⟩)
    -- After the first question mark a letter could still come; the second rules that out.
    have split : tags = (letters args ++ ['?']) ++ '?' :: after := by simpa using twice
    have stuck : ¬ Viable (ArgSpec.mark true ++ ['?']) := not_viable_unknown rfl fun _ => rfl
    refine .unknown split (viable_letters_append.2 (viable_mark true)) ?_
    rw [List.append_assoc, viable_letters_append]
    exact stuck

/-- The greatest version that fits, and two question marks in a row. -/
theorem parse_exact_marks :
    parse "4294967295u??h" = .error (.unknownTag '?' "4294967295u??h") ∧
      version ("4294967295u??h".toList.takeWhile Char.isDigit) < UInt32.size := by
  have fits : version ("4294967295u??h".toList.takeWhile Char.isDigit) < UInt32.size := by
    decide
  exact ⟨(parse_exact "4294967295u??h").2.2.2.1 [⟨.uint, false⟩] ['h'] rfl fits, fits⟩

end Signature

end Wayland
