import BraceLang.Proofs.Machine.Programs
import BraceLang.Proofs.Source.LineBreaks

/-!
# The end of the input

A machine over all tokens comes to what the parsers make of an input that has been cut off, so it
never sees what is behind the first end token. Where there is no end token it finds one all the
same. How often a lexer is called before its tokens are read makes no difference.
-/

namespace BraceLang

namespace Input

variable {inside : List Token} {ending : Token}

/-- An input is cut off at its first end token. -/
theorem ofTokens_append_cons (hinside : ∀ token ∈ inside, isInside token = true)
    (hending : isInside ending = false) (behind : List Token) :
    ofTokens (inside ++ ending :: behind) = ⟨inside.toArray, ending⟩ := by
  have htake : (inside ++ ending :: behind).takeWhile isInside = inside := by
    rw [List.takeWhile_append_of_pos hinside, List.takeWhile_cons_of_neg (by simp [hending]),
      List.append_nil]
  have hdrop : (inside ++ ending :: behind).dropWhile isInside = ending :: behind := by
    rw [List.dropWhile_append_of_pos hinside, List.dropWhile_cons_of_neg (by simp [hending])]
  rw [ofTokens, htake, hdrop]

/-- An input without an end token ends at its last token. -/
theorem ofTokens_of_isInside (hinside : ∀ token ∈ inside, isInside token = true) :
    ofTokens inside = ⟨inside.toArray, Token.ending (lastPlace inside)⟩ := by
  have htake : inside.takeWhile isInside = inside := List.takeWhile_eq_self_iff.mpr hinside
  have hdrop : inside.dropWhile isInside = [] := List.dropWhile_eq_nil_iff.mpr hinside
  rw [ofTokens, htake, hdrop]

end Input

/-- What parsing tokens comes to depends on the input that they are. -/
theorem parseTokens_of_ofTokens {left right : List Token}
    (hinput : Input.ofTokens left = Input.ofTokens right) (source : Option String)
    (options : Options) : parseTokens left source options = parseTokens right source options := by
  rw [parseTokens_eq_map, parseTokens_eq_map, hinput]

/-- However often a lexer is called, its tokens are the same input. -/
theorem Source.ofTokens_complete (source : String) (keywords : List String) (file : String)
    (more : Nat) :
    Input.ofTokens ((tokenization source keywords file).complete (more + 1)) =
      Input.ofTokens (tokenization source keywords file).complete := by
  have hinside : ∀ token ∈ (tokenization source keywords file).tokens,
      Input.isInside token = true := fun token hmem => by
    simpa [Input.isInside] using kind_ne_of_mem_tokenization hmem
  have hending : Input.isInside (Token.ending (tokenization source keywords file).stop) = false := by
    simp [Input.isInside, Token.ending]
  rw [Tokenization.complete, Tokenization.complete, List.replicate_succ, List.replicate_one,
    Input.ofTokens_append_cons hinside hending, Input.ofTokens_append_cons hinside hending]

/-- What is behind the first end token is never seen: a machine over all tokens comes to what is
parsed, with any tokens behind an end token or with none. Tokens without an end token are parsed as
if one stood behind them at the place of the last. A lexer that is called once more gives one more
end token and no diagnostic, and what is parsed stays the same. -/
theorem readTokens_at_end (source : Option String) (options : Options) {inside : List Token}
    (hinside : ∀ token ∈ inside, token.kind ≠ .endOfInput) :
    (∀ tokens, readTokens tokens source options = parseTokens tokens source options) ∧
      (∀ ending behind, ending.kind = .endOfInput →
        readTokens (inside ++ ending :: behind) source options =
          readTokens (inside ++ [ending]) source options) ∧
      (∀ last ∈ inside.getLast?, readTokens inside source options =
        readTokens (inside ++ [Token.ending last.location]) source options) ∧
      ∀ text keywords file more,
        let lexer := Source.Lexer.call^[more + 1] (.start text keywords file)
        let tokens := (Source.tokenize text keywords file).1
        (∃ ending ∈ tokens.getLast?, ending.kind = .endOfInput ∧
          lexer.tokens.toList = tokens ++ List.replicate more ending) ∧
          lexer.collector.reported = (Source.tokenize text keywords file).2 ∧
          readTokens lexer.tokens.toList source options = readTokens tokens source options := by
  have hall : ∀ token ∈ inside, Input.isInside token = true := fun token hmem => by
    simpa [Input.isInside] using hinside token hmem
  have hends {ending : Token} (hending : ending.kind = .endOfInput) :
      Input.isInside ending = false := by
    simp [Input.isInside, hending]
  refine ⟨fun tokens => readTokens_eq_parseTokens tokens source options, ?_, ?_, ?_⟩
  · intro ending behind hending
    rw [readTokens_eq_parseTokens, readTokens_eq_parseTokens]
    apply parseTokens_of_ofTokens
    rw [Input.ofTokens_append_cons hall (hends hending),
      Input.ofTokens_append_cons hall (hends hending)]
  · intro last hlast
    rw [readTokens_eq_parseTokens, readTokens_eq_parseTokens]
    apply parseTokens_of_ofTokens
    rw [Input.ofTokens_of_isInside hall, Input.ofTokens_append_cons hall (hends rfl),
      Input.lastPlace, Option.mem_def.mp hlast]
  · intro text keywords file more lexer tokens
    obtain ⟨htokens, -, hcollector, -⟩ :=
      Source.Lexer.calls_start text keywords file (.empty none) more
    have hfirst : tokens = (Source.tokenization text keywords file).complete := rfl
    refine ⟨⟨Token.ending (Source.tokenization text keywords file).stop, ?_, rfl, ?_⟩, ?_, ?_⟩
    · rw [hfirst, Source.Tokenization.complete, List.replicate_one, List.getLast?_concat]
      rfl
    · rw [htokens, hfirst, Source.Tokenization.complete, Source.Tokenization.complete,
        List.append_assoc, List.replicate_append_replicate, Nat.add_comm]
    · exact congrArg Diagnostic.Collector.reported hcollector
    · rw [readTokens_eq_parseTokens, readTokens_eq_parseTokens, htokens, hfirst]
      exact parseTokens_of_ofTokens (Source.ofTokens_complete text keywords file more) source options

/-- A name without a semicolon, and a semicolon behind the end token that nothing sees. -/
theorem readTokens_at_end_name :
    let name : Token := ⟨⟨.identifier, "x"⟩, ⟨1, 1, "main"⟩⟩
    let ending : Token := .ending ⟨1, 2, "main"⟩
    let semicolon : Token := ⟨⟨.symbol, ";"⟩, ⟨1, 2, "main"⟩⟩
    (∀ token ∈ [name], token.kind ≠ .endOfInput) ∧ ending.kind = .endOfInput ∧
      readTokens [name, ending, semicolon] none {} = readTokens [name, ending] none {} ∧
      readTokens [name] none {} = readTokens [name, .ending ⟨1, 1, "main"⟩] none {} := by
  intro name ending semicolon
  have hname : ∀ token ∈ [name], token.kind ≠ .endOfInput := by decide
  obtain ⟨-, hbehind, hlast, -⟩ := readTokens_at_end none {} hname
  exact ⟨hname, rfl, hbehind ending [semicolon] rfl, hlast name rfl⟩

end BraceLang
