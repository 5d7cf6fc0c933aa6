import BraceLang.Grammar.File
import BraceLang.Proofs.Configuration.Decoding
import BraceLang.Proofs.Configuration.Writing

/-!
# What a grammar is refused for

A datum is a grammar exactly if it is made up as a grammar is, and a file holds one exactly if its
text does. Anything else is refused with a complaint about the grammar, unless that cannot be put
into words: an invalid keyword holds an integer that is too long to be written or more values inside
one another than may be written at once, the names of unknown options are not all texts, or the
bytes of a file are no text. Each part of a grammar has a lemma that says what is accepted and what
is untold of it, and one lemma puts the parts together.

The loader of a file may be any that makes a datum of a text or says that the text is invalid.
-/

namespace BraceLang

section Readings

variable {α β ε η : Type} {isRefusal : ε → Bool}

/-- A reading comes to a value of what is accepted and to an error of anything else. The error is a
refusal, but not of what is untold. -/
def Judges (isRefusal : ε → Bool) (reading : Except ε α) (accepted untold : Prop) : Prop :=
  match reading with
  | .ok _ => accepted ∧ ¬untold
  | .error error => ¬accepted ∧ (isRefusal error = true ↔ ¬untold)

namespace Judges

variable {reading : Except ε α} {accepted untold : Prop}

/-- What is untold is not accepted. -/
theorem not_accepted (hreading : Judges isRefusal reading accepted untold) (huntold : untold) :
    ¬accepted := by
  cases reading with
  | ok value => exact absurd huntold hreading.2
  | error error => exact hreading.1

/-- What is accepted is read to a value. -/
theorem exists_ok (hreading : Judges isRefusal reading accepted untold) (haccepted : accepted) :
    ∃ value, reading = .ok value := by
  cases reading with
  | ok value => exact ⟨value, rfl⟩
  | error error => exact absurd haccepted hreading.1

/-- What is not accepted is read to an error, which is a refusal unless it is one of those untold.
-/
theorem exists_error (hreading : Judges isRefusal reading accepted untold)
    (hnot : ¬accepted) :
    ∃ error, reading = .error error ∧ (isRefusal error = true ↔ ¬untold) := by
  cases reading with
  | ok value => exact absurd hreading.1 hnot
  | error error => exact ⟨error, rfl, hreading.2⟩

/-- A value is read of what is accepted. -/
theorem ok (value : α) : Judges isRefusal (.ok value) True False := ⟨trivial, id⟩

/-- A refusal is read of what is not accepted. -/
theorem refusal {error : ε} (hrefusal : isRefusal error = true) :
    Judges isRefusal (.error error : Except ε α) False False :=
  ⟨id, fun _ => id, fun _ => hrefusal⟩

/-- An error that is no refusal. -/
theorem failure {error : ε} (hfailure : isRefusal error = false) :
    Judges isRefusal (.error error : Except ε α) False True :=
  ⟨id, by simp [hfailure]⟩

/-- A judgement may be told in other words. -/
theorem congr {accepted' untold' : Prop} (hreading : Judges isRefusal reading accepted untold)
    (haccepted : accepted ↔ accepted') (huntold : untold ↔ untold') :
    Judges isRefusal reading accepted' untold' := by
  rwa [← haccepted, ← huntold]

/-- What follows is read of what is accepted before, and does not depend on it. -/
theorem seq {next : α → Except ε β} {later untoldLater : Prop}
    (hreading : Judges isRefusal reading accepted untold)
    (hnext : ∀ value, Judges isRefusal (next value) later untoldLater) :
    Judges isRefusal (reading >>= next) (accepted ∧ later) (untold ∨ accepted ∧ untoldLater) := by
  cases reading with
  | error error =>
    obtain ⟨hnot, hrefusal⟩ := hreading
    exact ⟨fun h => hnot h.1, by simpa [hnot] using hrefusal⟩
  | ok value =>
    obtain ⟨haccepted, htold⟩ := hreading
    exact Judges.congr (show Judges isRefusal (.ok value >>= next) _ _ from hnext value)
      (by simp [haccepted]) (by simp [haccepted, htold])

/-- What is made of a value is of no account. -/
theorem map (hreading : Judges isRefusal reading accepted untold) (function : α → β) :
    Judges isRefusal (function <$> reading) accepted untold := by
  cases reading with
  | ok | error => exact hreading

/-- An error that is wrapped is a refusal if it was one. -/
theorem mapError {isRefusal' : η → Bool} {wrap : ε → η}
    (hreading : Judges isRefusal reading accepted untold)
    (hwrap : ∀ error, isRefusal' (wrap error) = isRefusal error) :
    Judges isRefusal' (reading.mapError wrap) accepted untold := by
  cases reading with
  | ok value => exact hreading
  | error error => exact ⟨hreading.1, by rw [hwrap, hreading.2]⟩

end Judges

end Readings

namespace Grammar

/-- The complaints about a grammar. The other errors come up where such a complaint is worded. -/
def Error.isRefusal : Error → Bool
  | .unwritableKeyword _ | .optionNotText _ | .optionsUnlike .. => false
  | .notRecord | .keywordsMissing | .keywordsNotList | .invalidKeyword _ | .optionsNotRecord
  | .unknownOptions _ | .optionNotBoolean _ => true

section Keywords

/-- A datum is a text without blanks, and not an empty one. -/
def IsKeyword (item : Datum) : Prop :=
  ∃ value text, item = .atom value ∧ value.text? = some text ∧ text ≠ "" ∧
    ∀ c ∈ text.toList, Unicode.isBlank c = false

/-- A datum is a list of keywords. -/
def AreKeywords (keywords : Datum) : Prop :=
  ∃ items, keywords = .list items ∧ ∀ item ∈ items, IsKeyword item

/-- A datum cannot be written: an integer in it has too many digits, or there is no room for all the
values that stand inside one another in it. -/
def IsUnwritable (room : Nat) (item : Datum) : Prop :=
  item.isWritable = false ∨ room < item.depth

/-- The first item of a list that is no keyword cannot be written. -/
inductive UntoldItem (room : Nat) : List Datum → Prop
  | here {item : Datum} {rest : List Datum} : ¬IsKeyword item → IsUnwritable room item →
    UntoldItem room (item :: rest)
  | later {item : Datum} {rest : List Datum} : IsKeyword item → UntoldItem room rest →
    UntoldItem room (item :: rest)

/-- It is the first item of all, or the first one of the rest behind a keyword. -/
theorem untoldItem_cons {room : Nat} {item : Datum} {rest : List Datum} :
    UntoldItem room (item :: rest) ↔
      (¬IsKeyword item ∧ IsUnwritable room item) ∨ IsKeyword item ∧ UntoldItem room rest := by
  constructor
  · rintro (⟨hitem, hunwritable⟩ | ⟨hitem, hrest⟩)
    · exact .inl ⟨hitem, hunwritable⟩
    · exact .inr ⟨hitem, hrest⟩
  · rintro (⟨hitem, hunwritable⟩ | ⟨hitem, hrest⟩)
    · exact .here hitem hunwritable
    · exact .later hitem hrest

/-- A datum cannot be written exactly if writing it goes wrong somewhere. -/
theorem writingError?_isSome {room : Nat} {item : Datum} :
    (item.writingError? room).isSome = true ↔ IsUnwritable room item := by
  rw [Option.isSome_iff_ne_none, Ne, item.writingError?_eq_none, IsUnwritable,
    Classical.not_and_iff_not_or_not, Bool.not_eq_true, Nat.not_le]

/-- A keyword is found in just those data that hold one. -/
theorem keyword?_isSome {item : Datum} : (keyword? item).isSome = true ↔ IsKeyword item := by
  cases item with
  | atom value =>
    cases htext : value.text? with
    | none => simp [keyword?, IsKeyword, htext]
    | some text => simp [keyword?, IsKeyword, isKeyword, htext]
  | list | record | set | pair | loop => simp [keyword?, IsKeyword]

/-- A keyword is read, and anything else is refused if it can be written. -/
theorem readKeyword_judges (room : Nat) (item : Datum) :
    Judges Error.isRefusal (readKeyword room item) (IsKeyword item)
      (¬IsKeyword item ∧ IsUnwritable room item) := by
  unfold readKeyword
  rw [← keyword?_isSome, ← writingError?_isSome]
  cases keyword? item with
  | some word => exact (Judges.ok word).congr (by simp) (by simp)
  | none =>
    cases item.writingError? room with
    | none => exact (Judges.refusal rfl).congr (by simp) (by simp)
    | some error => exact (Judges.failure rfl).congr (by simp) (by simp)

/-- Keywords are read one after the other. -/
theorem readKeywords_judges (room : Nat) (keywords : Datum) :
    Judges Error.isRefusal (readKeywords room keywords) (AreKeywords keywords)
      (∃ items, keywords = .list items ∧ UntoldItem room items) := by
  have hitems (items : List Datum) :
      Judges Error.isRefusal (items.mapM (readKeyword room)) (∀ item ∈ items, IsKeyword item)
        (UntoldItem room items) := by
    induction items with
    | nil => exact (Judges.ok []).congr (by simp) ⟨False.elim, fun h => nomatch h⟩
    | cons item rest ih =>
      rw [List.mapM_cons]
      refine ((readKeyword_judges room item).seq fun word =>
        ih.seq fun words => .ok (word :: words)).congr (by simp) ?_
      rw [untoldItem_cons]
      simp
  cases keywords with
  | list items =>
    exact ((hitems items).map sortedTexts).congr (by simp [AreKeywords]) (by simp)
  | atom | record | set | pair | loop =>
    exact (Judges.refusal rfl).congr (by simp [AreKeywords]) (by simp)

end Keywords

section Options

/-- A name of an option. -/
def IsOptionName (key : Atom) : Prop := key = .text functionOption ∨ key = .text methodOption

/-- Options are absent, null, or truth values for their names. -/
def AreOptions (options : Option Datum) : Prop :=
  options = none ∨ options = some (.atom .null) ∨
    ∃ fields, options = some (.record fields) ∧
      ∀ field ∈ fields, IsOptionName field.1 ∧ ∃ value, field.2 = .boolean value

/-- Among the names of options is an unknown one that is no text. -/
def UntoldOption (options : Option Datum) : Prop :=
  ∃ fields, options = some (.record fields) ∧
    ∃ field ∈ fields, ¬IsOptionName field.1 ∧ field.1.kind ≠ .text

/-- The name of an option is found in just those keys that are one. -/
theorem isOption_eq_true {key : Atom} : isOption key = true ↔ IsOptionName key := by
  simp [isOption, IsOptionName]

/-- Unknown names are refused if all of them are texts. -/
theorem checkNames_judges (keys : List Atom) :
    Judges Error.isRefusal (checkNames keys) (∀ key ∈ keys, IsOptionName key)
      (∃ key ∈ keys, ¬IsOptionName key ∧ key.kind ≠ .text) := by
  have hmem {key : Atom} : key ∈ keys.filter (!isOption ·) ↔ key ∈ keys ∧ ¬IsOptionName key := by
    simp [← isOption_eq_true]
  have haccepted : (∀ key ∈ keys, IsOptionName key) ↔ ∀ key, key ∉ keys.filter (!isOption ·) := by
    simp only [hmem, not_and, Classical.not_not]
  have huntold : (∃ key ∈ keys, ¬IsOptionName key ∧ key.kind ≠ .text) ↔
      ∃ key ∈ keys.filter (!isOption ·), key.kind ≠ .text := by
    simp only [hmem, and_assoc]
  rw [haccepted, huntold]
  unfold checkNames
  cases hunknown : keys.filter (!isOption ·) with
  | nil => exact (Judges.ok ()).congr (by simp) (by simp)
  | cons first rest =>
    have hfirst : ¬∀ key, key ∉ first :: rest := fun hnone => hnone first List.mem_cons_self
    cases hother : rest.find? (·.kind != first.kind) with
    | some other =>
      have hkind := List.find?_some hother
      simp only [hother]
      refine (Judges.failure rfl).congr (iff_of_false id hfirst) (iff_of_true trivial ?_)
      by_cases htext : first.kind = .text
      · exact ⟨other, List.mem_cons_of_mem _ (List.mem_of_find?_eq_some hother),
          fun hsame => by simp [hsame, htext] at hkind⟩
      · exact ⟨first, List.mem_cons_self, htext⟩
    | none =>
      have hkind : ∀ key ∈ first :: rest, key.kind = first.kind := by
        simpa using hother
      by_cases htext : first.kind = .text
      · simp only [hother, if_pos htext]
        refine (Judges.refusal rfl).congr (iff_of_false id hfirst) (iff_of_false id ?_)
        rintro ⟨key, hkey, hother⟩
        exact hother ((hkind key hkey).trans htext)
      · simp only [hother, if_neg htext]
        exact (Judges.failure rfl).congr (iff_of_false id hfirst)
          (iff_of_true trivial ⟨first, List.mem_cons_self, htext⟩)

/-- Options with values that are no truth values are refused. -/
theorem checkValues_judges (fields : Fields Datum) :
    Judges Error.isRefusal (checkValues fields)
      (∀ field ∈ fields, ∃ value, field.2 = .boolean value) False := by
  induction fields with
  | nil => exact (Judges.ok ()).congr (by simp) (by simp)
  | cons field rest ih =>
    obtain ⟨key, value⟩ := field
    by_cases hvalue : ∃ truth, value = .boolean truth
    · obtain ⟨truth, rfl⟩ := hvalue
      have hrest : Judges Error.isRefusal (checkValues ((key, .boolean truth) :: rest)) _ _ := ih
      exact hrest.congr (by simp [Datum.boolean]) Iff.rfl
    · have herror : checkValues ((key, value) :: rest) = .error (.optionNotBoolean key) := by
        cases value with
        | atom value =>
          cases value with
          | boolean truth => exact absurd ⟨truth, rfl⟩ hvalue
          | null | integer | real | text | illFormed | bytes | date | moment => rfl
        | list | record | set | pair | loop => rfl
      rw [herror]
      exact (Judges.refusal rfl).congr
        (iff_of_false id fun h => hvalue (h _ List.mem_cons_self)) Iff.rfl

/-- Options are read from just those data that hold some. A key that is no text is not refused where
it is unknown. -/
theorem readOptions_judges (options : Option Datum) :
    Judges Error.isRefusal (readOptions options) (AreOptions options) (UntoldOption options) := by
  cases options with
  | none => exact (Judges.ok _).congr (by simp [AreOptions]) (by simp [UntoldOption])
  | some options =>
    cases options with
    | record fields =>
      refine ((checkNames_judges (fields.map Prod.fst)).seq fun _ =>
        (checkValues_judges fields).seq fun _ => .ok _).congr ?_ ?_
      · simp [AreOptions, forall_and]
      · simp [UntoldOption]
    | atom value =>
      cases value with
      | null => exact (Judges.ok _).congr (by simp [AreOptions]) (by simp [UntoldOption])
      | boolean | integer | real | text | illFormed | bytes | date | moment =>
        exact (Judges.refusal rfl).congr (by simp [AreOptions]) (by simp [UntoldOption])
    | list | set | pair | loop =>
      exact (Judges.refusal rfl).congr (by simp [AreOptions]) (by simp [UntoldOption])

end Options

/-- A datum is a record with keywords and, if wanted, options. -/
def IsGrammar (datum : Datum) : Prop :=
  ∃ fields keywords, datum = .record fields ∧
    Fields.get? fields (.text "keywords") = some keywords ∧ AreKeywords keywords ∧
    AreOptions (Fields.get? fields (.text "parser"))

/-- What is wrong with a datum is its first invalid keyword, which cannot be written, or else the
name of an unknown option, which is no text. -/
def IsUntold (room : Nat) (datum : Datum) : Prop :=
  ∃ fields keywords, datum = .record fields ∧
    Fields.get? fields (.text "keywords") = some keywords ∧
    ((∃ items, keywords = .list items ∧ UntoldItem room items) ∨
      AreKeywords keywords ∧ UntoldOption (Fields.get? fields (.text "parser")))

/-- What is a grammar is read, and anything else is refused unless what is wrong with it is
untold. -/
theorem ofDatum_judges (room : Nat) (datum : Datum) :
    Judges Error.isRefusal (ofDatum room datum) (IsGrammar datum) (IsUntold room datum) := by
  cases datum with
  | record fields =>
    unfold ofDatum
    cases hkeywords : Fields.get? fields (.text "keywords") with
    | none =>
      simp only [hkeywords]
      exact (Judges.refusal rfl).congr (by simp [IsGrammar, hkeywords])
        (by simp [IsUntold, hkeywords])
    | some keywords =>
      simp only [hkeywords]
      exact ((readKeywords_judges room keywords).seq fun _ =>
        (readOptions_judges (Fields.get? fields (.text "parser"))).seq fun _ => .ok _).congr
          (by simp [IsGrammar, hkeywords]) (by simp [IsUntold, hkeywords])
  | atom | list | set | pair | loop =>
    exact (Judges.refusal rfl).congr (by simp [IsGrammar]) (by simp [IsUntold])

section Files

/-- The complaints about a grammar file: that it cannot be read, that it is invalid, and those about
the grammar in it. -/
def FileError.isRefusal : FileError → Bool
  | .nullInPath | .undecodable _ | .noData (.unforeseen ..) => false
  | .missing _ | .isDirectory _ | .nameTooLong _ | .noData (.invalid _) => true
  | .invalidGrammar error => error.isRefusal

/-- A loader makes a datum of every text or says that the text is invalid. -/
def Loader.IsSafe (load : Loader) : Prop :=
  ∀ text error, load text = .error error → ∃ reason, error = .invalid reason

variable {load : Loader}

/-- What a loader makes of a text is read as a grammar. -/
theorem ofText_judges (hload : load.IsSafe) (room : Nat) (text : List Char) :
    Judges FileError.isRefusal (ofText load room text)
      (∃ datum, load (Text.withLineFeeds text) = .ok datum ∧ IsGrammar datum)
      (∃ datum, load (Text.withLineFeeds text) = .ok datum ∧ IsUntold room datum) := by
  unfold ofText
  cases hdatum : load (Text.withLineFeeds text) with
  | error error =>
    obtain ⟨reason, rfl⟩ := hload _ error hdatum
    exact (Judges.refusal rfl).congr (by simp) (by simp)
  | ok datum =>
    have hgrammar : Judges FileError.isRefusal ((ofDatum room datum).mapError .invalidGrammar) _ _ :=
      (ofDatum_judges room datum).mapError fun _ => rfl
    exact hgrammar.congr (by simp) (by simp)

/-- What a file holds, if its bytes are a text that a loader makes a datum of. -/
def Holds (load : Loader) (bytes : List Nat) (datum : Datum) : Prop :=
  ∃ text, bytes = Text.encodeUtf8 text ∧ load (Text.withLineFeeds text) = .ok datum

/-- A file is read if its bytes are those of a text. -/
theorem ofStored_judges (hload : load.IsSafe) (room : Nat) {path : String}
    (hpath : '\x00' ∉ path.toList) (bytes : List Nat) :
    Judges FileError.isRefusal (ofStored load room path (.file bytes))
      (∃ held, Holds load bytes held ∧ IsGrammar held)
      ((¬∃ text, bytes = Text.encodeUtf8 text) ∨
        ∃ held, Holds load bytes held ∧ IsUntold room held) := by
  unfold ofStored Holds
  rw [if_neg (by simpa using hpath)]
  simp only [← Text.decodeUtf8_eq_ok]
  cases hdecoded : Text.decodeUtf8 bytes with
  | error error => exact (Judges.failure rfl).congr (by simp) (by simp)
  | ok text => exact (ofText_judges hload room text).congr (by simp) (by simp)

end Files

/-- A datum is read as a grammar exactly if it is one. Otherwise it is refused with a complaint
about the grammar, unless what is wrong with it is untold. A file is read exactly if it holds a
grammar, given a loader that makes data of texts or says that they are invalid. Otherwise it is
refused, unless it holds a datum of which that is untold or its bytes are no text. -/
theorem ofDatum_ofStored_outcomes (hload : load.IsSafe) (room : Nat) (datum : Datum) {path : String}
    (hpath : '\x00' ∉ path.toList) (bytes : List Nat) :
    (IsGrammar datum → ∃ grammar, ofDatum room datum = .ok grammar) ∧
      (¬IsGrammar datum → ∃ error, ofDatum room datum = .error error ∧
        (error.isRefusal = true ↔ ¬IsUntold room datum)) ∧
      ((∃ held, Holds load bytes held ∧ IsGrammar held) →
        ∃ grammar, ofStored load room path (.file bytes) = .ok grammar) ∧
      ((¬∃ held, Holds load bytes held ∧ IsGrammar held) →
        ∃ error, ofStored load room path (.file bytes) = .error error ∧
          (error.isRefusal = true ↔ (∃ text, bytes = Text.encodeUtf8 text) ∧
            ¬∃ held, Holds load bytes held ∧ IsUntold room held)) := by
  have hdatum := ofDatum_judges room datum
  have hfile := ofStored_judges hload room hpath bytes
  refine ⟨hdatum.exists_ok, hdatum.exists_error, hfile.exists_ok, fun hnot => ?_⟩
  simpa only [not_or, Classical.not_not] using hfile.exists_error hnot

/-- A loader that knows a pair of braces and nothing else. -/
def bracesLoader : Loader := fun text =>
  if text = "\x7b\x7d".toList then .ok (.record []) else .error (.invalid "no pair of braces")

/-- A number among the names of options is no text, so what is wrong is untold, and so it is of a
list in a list that stands for a keyword where there is room for two values. In the file is a record
without keywords, which is refused. -/
theorem ofDatum_ofStored_outcomes_number :
    let numbered : Datum := .record [(.text "keywords", .list []),
      (.text "parser", .record [(.integer 1, .boolean true)])]
    let nested : Datum := .record [(.text "keywords", .list [.list [.list [.atom .null]]])]
    bracesLoader.IsSafe ∧
      (∃ error, ofDatum 2 numbered = .error error ∧ error.isRefusal = false) ∧
      (∃ error, ofDatum 2 nested = .error error ∧ error.isRefusal = false) ∧
      ∃ error, ofStored bracesLoader 2 "grammar.yaml" (.file [0x7B, 0x7D]) = .error error ∧
        error.isRefusal = true := by
  intro numbered nested
  have hload : bracesLoader.IsSafe := by
    intro text error herror
    unfold bracesLoader at herror
    split at herror
    · cases herror
    · exact ⟨_, (Except.error.inj herror).symm⟩
  have hbytes : [0x7B, 0x7D] = Text.encodeUtf8 "\x7b\x7d".toList := by decide
  have hempty : ∀ held, Holds bracesLoader [0x7B, 0x7D] held → held = .record [] := by
    rintro held ⟨text, htext, hdatum⟩
    obtain rfl := Text.encodeUtf8_injective (htext.symm.trans hbytes)
    exact (Except.ok.inj hdatum).symm
  have hkeywords : ¬IsGrammar (.record []) ∧ ¬IsUntold 2 (.record []) := by
    simp [IsGrammar, IsUntold, Fields.get?]
  have hnumbered : IsUntold 2 numbered :=
    ⟨_, _, rfl, rfl, .inr ⟨⟨[], rfl, fun _ h => nomatch h⟩, _, rfl, _, List.mem_singleton_self _,
      by simp [IsOptionName], by decide⟩⟩
  have hnested : IsUntold 2 nested :=
    ⟨_, _, rfl, rfl, .inl ⟨_, rfl, .here (by simp [IsKeyword]) (.inr (by decide))⟩⟩
  have huntold {datum : Datum} (huntold : IsUntold 2 datum) :
      ∃ error, ofDatum 2 datum = .error error ∧ error.isRefusal = false := by
    obtain ⟨-, hrefused, -⟩ :=
      @ofDatum_ofStored_outcomes _ hload 2 datum "grammar.yaml" (by decide) []
    obtain ⟨error, herror, hrefusal⟩ := hrefused ((ofDatum_judges 2 datum).not_accepted huntold)
    exact ⟨error, herror, by simpa [huntold] using hrefusal⟩
  refine ⟨hload, huntold hnumbered, huntold hnested, ?_⟩
  obtain ⟨-, -, -, hfile⟩ :=
    @ofDatum_ofStored_outcomes _ hload 2 numbered "grammar.yaml" (by decide) [0x7B, 0x7D]
  obtain ⟨error, herror, hrefusal⟩ := hfile fun ⟨held, hheld, hgrammar⟩ =>
    hkeywords.1 (hempty held hheld ▸ hgrammar)
  exact ⟨error, herror, hrefusal.mpr ⟨⟨_, hbytes⟩, fun ⟨held, hheld, huntold⟩ =>
    hkeywords.2 (hempty held hheld ▸ huntold)⟩⟩

end Grammar

end BraceLang
