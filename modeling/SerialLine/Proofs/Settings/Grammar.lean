import Mathlib.Data.List.Forall2
import Mathlib.Data.List.ReduceOption
import SerialLine.Proofs.Settings.Overrides
/-! # The grammar of arguments

* `Spaced`: how a text is made of words and blanks. `words_of_spaced`, `spaced_words`: every text is, in one
  way, and `words` finds it.
* `Denotes`: what a word stands for. `ofWord?_denotes`, `Denotes.ofWord?_eq`: every word stands for one thing.
* `Argument.Plain`: the arguments that can be written as `key=value`. They are those that texts have.
* `parse_reads`: the arguments of a text, of arguments that were written down and of two texts together.
-/
set_option autoImplicit false

namespace SerialLine

/-- The characters that separate words. -/
def Arguments.blanks : List Char := [' ', '\t', '\n', '\x0c', '\r']

/-- The arguments that can be written down: neither part has a blank, and the key ends before the first `=`. -/
structure Argument.Plain (arg : Argument) : Prop where
  key_ne : arg.key.toList ≠ []
  key_plain : ∀ c ∈ arg.key.toList, c ≠ '=' ∧ c ∉ Arguments.blanks
  value_plain : ∀ c ∈ arg.value.toList, c ∉ Arguments.blanks

def Argument.written (arg : Argument) : List Char := arg.key.toList ++ '=' :: arg.value.toList

namespace Arguments

def IsGap (gap : List Char) : Prop := ∀ c ∈ gap, c ∈ blanks

structure IsWord (word : List Char) : Prop where
  ne_nil : word ≠ []
  solid : ∀ c ∈ word, c ∉ blanks

/-- A text is made of words, with blanks between them and any blanks around. -/
inductive Spaced : List (List Char) → List Char → Prop where
  | nothing {gap : List Char} (hgap : IsGap gap) : Spaced [] gap
  | last {gap word : List Char} (hgap : IsGap gap) (hword : IsWord word) : Spaced [word] (gap ++ word)
  | next {gap word rest : List Char} {c : Char} {ws : List (List Char)} (hgap : IsGap gap)
      (hword : IsWord word) (hc : c ∈ blanks) (hrest : Spaced ws rest) :
      Spaced (word :: ws) (gap ++ word ++ c :: rest)

/-- What a word stands for: a key with a value, a key alone, or nothing. -/
inductive Denotes : List Char → Option Argument → Prop where
  | pair {key value : List Char} (hkey : key ≠ []) (hplain : '=' ∉ key) :
      Denotes (key ++ '=' :: value) (some ⟨String.ofList key, String.ofList value⟩)
  | bare {word : List Char} (hword : word ≠ []) (hplain : '=' ∉ word) :
      Denotes word (some ⟨String.ofList word, "true"⟩)
  | keyless {rest : List Char} : Denotes ('=' :: rest) none

variable {c : Char} {gap word text more read : List Char} {ws vs : List (List Char)}
  {meaning : Option Argument}

/-! ## Words in a text -/

theorem isBlank_iff : isBlank c = true ↔ c ∈ blanks := by
  simp [isBlank, blanks, or_assoc]

theorem wordsAfter_of_gap (hgap : IsGap gap) (rest : List Char) :
    wordsAfter [] (gap ++ rest) = wordsAfter [] rest := by
  induction gap with
  | nil => rfl
  | cons c gap ih =>
    rw [IsGap, List.forall_mem_cons] at hgap
    rw [List.cons_append, wordsAfter, if_pos (isBlank_iff.mpr hgap.1)]
    exact ih hgap.2

theorem wordsAfter_of_solid (hsolid : ∀ c ∈ word, c ∉ blanks) (read rest : List Char) :
    wordsAfter read (word ++ rest) = wordsAfter (word.reverse ++ read) rest := by
  induction word generalizing read with
  | nil => rfl
  | cons c word ih =>
    rw [List.forall_mem_cons] at hsolid
    rw [List.cons_append, wordsAfter, if_neg (fun h => hsolid.1 (isBlank_iff.mp h)), ih hsolid.2,
      List.reverse_cons, List.append_assoc]
    rfl

theorem IsWord.reverse_ne (h : IsWord word) : ¬word.reverse.isEmpty = true := by
  simpa using h.ne_nil

/-- However a text is made of words, these are the ones that are found. -/
theorem words_of_spaced (h : Spaced ws text) : words text = ws := by
  rw [words]
  induction h with
  | @nothing gap hgap =>
    rw [← List.append_nil gap, wordsAfter_of_gap hgap]
    rfl
  | @last gap word hgap hword =>
    rw [wordsAfter_of_gap hgap, ← List.append_nil word, wordsAfter_of_solid hword.solid, wordsAfter,
      List.append_nil, List.append_nil, if_neg hword.reverse_ne, List.reverse_reverse]
  | next hgap hword hc _ ih =>
    rw [List.append_assoc, wordsAfter_of_gap hgap, wordsAfter_of_solid hword.solid, wordsAfter,
      if_pos (isBlank_iff.mpr hc), List.append_nil, if_neg hword.reverse_ne, List.reverse_reverse, ih]

theorem Spaced.behind (hgap : IsGap gap) (h : Spaced ws text) : Spaced ws (gap ++ text) := by
  have hjoin {gap' : List Char} (hgap' : IsGap gap') : IsGap (gap ++ gap') :=
    List.forall_mem_append.mpr ⟨hgap, hgap'⟩
  cases h with
  | nothing hgap' => exact .nothing (hjoin hgap')
  | last hgap' hword =>
    rw [← List.append_assoc]
    exact .last (hjoin hgap') hword
  | next hgap' hword hc hrest =>
    rw [← List.append_assoc, ← List.append_assoc]
    exact .next (hjoin hgap') hword hc hrest

theorem Spaced.append (h : Spaced ws text) (hc : c ∈ blanks) (hmore : Spaced vs more) :
    Spaced (ws ++ vs) (text ++ c :: more) := by
  have hsingle : IsGap [c] := by simpa [IsGap] using hc
  induction h with
  | nothing hgap => exact (hmore.behind hsingle).behind hgap
  | last hgap hword => exact .next hgap hword hc hmore
  | next hgap hword hc' _ ih =>
    rw [List.append_assoc, List.cons_append, List.cons_append]
    exact .next hgap hword hc' ih

theorem Spaced.isWord (h : Spaced ws text) (hmem : word ∈ ws) : IsWord word := by
  induction h with
  | nothing => cases hmem
  | last _ hword =>
    rw [List.mem_singleton.mp hmem]
    exact hword
  | next _ hword _ _ ih =>
    rcases List.mem_cons.mp hmem with rfl | hrest
    · exact hword
    · exact ih hrest

/-- The scan with the characters `read` behind it, of which a word may still be made. -/
theorem spaced_wordsAfter (text : List Char) (hread : ∀ c ∈ read, c ∉ blanks) :
    Spaced (wordsAfter read text) (read.reverse ++ text) := by
  have hnone : IsGap [] := List.forall_mem_nil _
  have hword (hne : read ≠ []) : IsWord read.reverse :=
    ⟨by simpa using hne, fun c hc => hread c (List.mem_reverse.mp hc)⟩
  induction text generalizing read with
  | nil =>
    rw [wordsAfter, List.append_nil]
    split_ifs with hempty
    · rw [List.isEmpty_iff.mp hempty]
      exact .nothing hnone
    · exact .last hnone (hword (by simpa using hempty))
  | cons c text ih =>
    have hrest : Spaced (wordsAfter [] text) text :=
      ih (List.forall_mem_nil _) (fun hne => absurd rfl hne)
    rw [wordsAfter]
    split_ifs with hblank hempty
    · have hgap : IsGap [c] := by simpa [IsGap] using isBlank_iff.mp hblank
      have hread' := List.isEmpty_iff.mp hempty
      subst hread'
      show Spaced (wordsAfter [] text) ([c] ++ text)
      exact hrest.behind hgap
    · exact .next hnone (hword (by simpa using hempty)) (isBlank_iff.mp hblank) hrest
    · have hsolid : ∀ d ∈ c :: read, d ∉ blanks :=
        List.forall_mem_cons.mpr ⟨fun h => hblank (isBlank_iff.mpr h), hread⟩
      have hlonger := ih hsolid fun _ =>
        ⟨by simp, fun d hd => hsolid d (List.mem_reverse.mp hd)⟩
      rw [List.reverse_cons, List.append_assoc] at hlonger
      exact hlonger

theorem spaced_words (text : List Char) : Spaced (words text) text :=
  spaced_wordsAfter text (List.forall_mem_nil _)

theorem words_append (text : List Char) (hc : c ∈ blanks) (more : List Char) :
    words (text ++ c :: more) = words text ++ words more :=
  words_of_spaced ((spaced_words text).append hc (spaced_words more))

/-! ## What a word stands for -/

theorem key_of_plain (hplain : '=' ∉ word) (rest : List Char) :
    (word ++ rest).takeWhile (· ≠ '=') = word ++ rest.takeWhile (· ≠ '=') ∧
      (word ++ rest).dropWhile (· ≠ '=') = rest.dropWhile (· ≠ '=') := by
  have hother : ∀ c ∈ word, decide (c ≠ '=') = true := fun c hc =>
    decide_eq_true (fun heq => hplain (heq ▸ hc))
  exact ⟨List.takeWhile_append_of_pos hother, List.dropWhile_append_of_pos hother⟩

theorem Denotes.ofWord?_eq (h : Denotes word meaning) : ofWord? word = meaning := by
  cases h with
  | @pair key value hkey hplain =>
    obtain ⟨htake, hdrop⟩ := key_of_plain hplain ('=' :: value)
    rw [List.takeWhile_cons_of_neg (by simp), List.append_nil] at htake
    rw [List.dropWhile_cons_of_neg (by simp)] at hdrop
    simp only [ofWord?, htake, hdrop]
    rw [if_neg (by simpa using hkey)]
  | bare hword hplain =>
    obtain ⟨htake, hdrop⟩ := key_of_plain hplain []
    rw [List.append_nil, List.takeWhile_nil, List.append_nil] at htake
    rw [List.append_nil, List.dropWhile_nil] at hdrop
    simp only [ofWord?, htake, hdrop]
    rw [if_neg (by simpa using hword)]
    rfl
  | keyless => simp [ofWord?]

theorem exists_denotes (hword : word ≠ []) : ∃ meaning, Denotes word meaning := by
  by_cases hmem : '=' ∈ word
  · obtain ⟨key, value, rfl, hplain⟩ := List.eq_append_cons_of_mem hmem
    by_cases hkey : key = []
    · subst hkey
      exact ⟨_, .keyless⟩
    · exact ⟨_, .pair hkey hplain⟩
  · exact ⟨_, .bare hword hmem⟩

theorem ofWord?_denotes (hword : word ≠ []) : Denotes word (ofWord? word) := by
  obtain ⟨meaning, hmeaning⟩ := exists_denotes hword
  rw [hmeaning.ofWord?_eq]
  exact hmeaning

theorem denotes_written {arg : Argument} (h : arg.Plain) : Denotes arg.written (some arg) := by
  have hplain : '=' ∉ arg.key.toList := fun hmem => (h.key_plain _ hmem).1 rfl
  have hpair : Denotes arg.written (some ⟨String.ofList arg.key.toList, String.ofList arg.value.toList⟩) :=
    .pair h.key_ne hplain
  rwa [String.ofList_toList, String.ofList_toList] at hpair

theorem Denotes.plain {arg : Argument} (h : Denotes word (some arg)) (hsolid : ∀ c ∈ word, c ∉ blanks) :
    arg.Plain := by
  cases h with
  | @pair key value hkey hplain =>
    rw [List.forall_mem_append, List.forall_mem_cons] at hsolid
    obtain ⟨hkeySolid, -, hvalueSolid⟩ := hsolid
    refine ⟨?_, ?_, ?_⟩ <;> simp only [String.toList_ofList]
    · exact hkey
    · exact fun c hc => ⟨fun heq => hplain (heq ▸ hc), hkeySolid c hc⟩
    · exact hvalueSolid
  | bare hword hplain =>
    have hall : ("true".toList.all fun c => !blanks.contains c) = true := by decide +kernel
    have hvalue : ∀ c ∈ "true".toList, c ∉ blanks := by simpa using hall
    refine ⟨?_, ?_, hvalue⟩ <;> simp only [String.toList_ofList]
    · exact hword
    · exact fun c hc => ⟨fun heq => hplain (heq ▸ hc), hsolid c hc⟩

/-! ## Arguments of a text -/

theorem entries_parse (text : String) :
    (parse text).entries = ((words text.toList).map ofWord?).reduceOption := by
  rw [parse, append, List.reduceOption, List.filterMap_map]
  rfl

theorem meanings_eq {meanings : List (Option Argument)} (h : List.Forall₂ Denotes ws meanings) :
    ws.map ofWord? = meanings := by
  induction h with
  | nil => rfl
  | cons hmeaning _ ih => rw [List.map_cons, hmeaning.ofWord?_eq, ih]

theorem entries_of_spaced {text : String} {meanings : List (Option Argument)}
    (hspaced : Spaced ws text.toList) (hmeanings : List.Forall₂ Denotes ws meanings) :
    (parse text).entries = meanings.reduceOption := by
  rw [entries_parse, words_of_spaced hspaced, meanings_eq hmeanings]

theorem forall₂_ofWord? (hwords : ∀ word ∈ ws, IsWord word) :
    List.Forall₂ Denotes ws (ws.map ofWord?) := by
  rw [List.forall₂_map_right_iff, List.forall₂_same]
  exact fun word hmem => ofWord?_denotes (hwords word hmem).ne_nil

theorem forall₂_written {args : List Argument} (hplain : ∀ arg ∈ args, arg.Plain) :
    List.Forall₂ Denotes (args.map Argument.written) (args.map some) := by
  rw [List.forall₂_map_left_iff, List.forall₂_map_right_iff, List.forall₂_same]
  exact fun arg hmem => denotes_written (hplain arg hmem)

theorem plain_of_mem {text : String} {arg : Argument} (h : arg ∈ (parse text).entries) : arg.Plain := by
  rw [entries_parse, List.reduceOption_mem_iff, List.mem_map] at h
  obtain ⟨word, hmem, hword⟩ := h
  have hisWord := (spaced_words text.toList).isWord hmem
  have hdenotes := ofWord?_denotes hisWord.ne_nil
  rw [hword] at hdenotes
  exact hdenotes.plain hisWord.solid

theorem parse_append (text more : String) : (parse text).append more = parse (text ++ " " ++ more) := by
  have htext : (text ++ " " ++ more).toList = text.toList ++ ' ' :: more.toList := by
    rw [String.toList_append, String.toList_append, List.append_assoc]
    rfl
  rw [parse, parse, append, append, append, htext, words_append text.toList (by decide),
    List.filterMap_append]
  rfl

/-- What the arguments of a text are, alone and with another text behind it. -/
structure Reads (text : String) : Prop where
  /-- The text is made of words, and the arguments are what these stand for, in order. -/
  entries_iff : ∀ args, (parse text).entries = args ↔ ∃ ws meanings, Spaced ws text.toList ∧
    List.Forall₂ Denotes ws meanings ∧ meanings.reduceOption = args
  /-- Arguments that are written down with blanks between them are read back. -/
  readBack : ∀ args, (∀ arg ∈ args, arg.Plain) → Spaced (args.map Argument.written) text.toList →
    (parse text).entries = args
  /-- No other arguments come out of a text. -/
  plain : ∀ arg ∈ (parse text).entries, arg.Plain
  joined : ∀ more, (parse text).append more = parse (text ++ " " ++ more)
  /-- The later text decides the value of a key, the earlier one if the later one does not have it. -/
  later : ∀ more key value, (parse more).Last key value →
    ((parse text).append more).get? key = some value
  earlier : ∀ more key, (parse more).Lacks key →
    ∀ value, ((parse text).append more).get? key = some value ↔ (parse text).Last key value

theorem parse_reads (text : String) : Reads text where
  entries_iff args := by
    constructor
    · rintro rfl
      have hspaced := spaced_words text.toList
      exact ⟨_, _, hspaced, forall₂_ofWord? fun word hmem => hspaced.isWord hmem, (entries_parse text).symm⟩
    · rintro ⟨ws, meanings, hspaced, hmeanings, rfl⟩
      exact entries_of_spaced hspaced hmeanings
  readBack args hplain hspaced := by
    rw [entries_of_spaced hspaced (forall₂_written hplain), List.reduceOption, List.filterMap_map]
    exact List.filterMap_some
  plain arg hmem := plain_of_mem hmem
  joined more := parse_append text more
  later more key value hlast := by
    rw [get?_append, get?_eq_some_iff.mpr hlast, Option.some_or]
  earlier more key hlacks value := by
    rw [get?_append, get?_eq_none_iff.mpr hlacks, Option.none_or, get?_eq_some_iff]

example : (parse "\t a=1 \n=2 b a= c==d\x0c").entries =
    [⟨"a", "1"⟩, ⟨"b", "true"⟩, ⟨"a", ""⟩, ⟨"c", "=d"⟩] := by
  decide +kernel

end Arguments
end SerialLine
