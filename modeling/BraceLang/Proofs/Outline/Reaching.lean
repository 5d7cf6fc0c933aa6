import BraceLang.Proofs.Outline.Locality

/-!
# Where a parser is called

A parser calls its parts one behind the other, each where the one before it has stopped. An outline
tells what the parts are, so it tells also which parsers are called on the way and where. Only calls
in front of which every part has come to a value are looked at, as they are the only ones there are
where nothing is wrong.
-/

namespace BraceLang

open BraceLang.Parser

variable {σ : Type}

/-- Rounds of a repetition behind which it goes on, none or more, from what is held and unread
before the first of them to what is held and unread behind the last. -/
inductive RoundsTo (round : σ → Parser (Turn σ)) : σ → List Lexeme → σ → List Lexeme → Prop
  | here {state : σ} {unread : List Lexeme} : RoundsTo round state unread state unread
  | again {state next last : σ} {unread middle rest : List Lexeme} {reports : List Report} :
    round state unread = .done (.again next) middle reports → RoundsTo round next middle last rest →
    RoundsTo round state unread last rest

/-- Rounds never go back. -/
theorem RoundsTo.suffix {round : σ → Parser (Turn σ)} {state last : σ} {unread rest : List Lexeme}
    (hrounds : RoundsTo round state unread last rest) (hruns : ∀ state, (round state).Runs) :
    rest <:+ unread := by
  induction hrounds with
  | here => exact List.suffix_refl _
  | again hagain _ ih => exact ih.trans ((hruns _).suffix hagain)

/-- A repetition that comes to a value does so from any of its rounds on. -/
theorem RoundsTo.exists_remaining {round : σ → Parser (Turn σ)} {state held last : σ}
    {unread rest left fuel : List Lexeme} (hrounds : RoundsTo round state unread held rest)
    (hdone : repeatFor round fuel state unread = .done last left []) :
    ∃ remaining, repeatFor round remaining held rest = .done last left [] := by
  induction hrounds generalizing fuel with
  | here => exact ⟨fuel, hdone⟩
  | again hagain _ ih =>
    rcases repeatFor_cases hdone with hfinish |
      ⟨lexeme, fewer, next, middle, earlier, later, rfl, hturn, hlater, hreports⟩
    · rw [hagain] at hfinish
      cases hfinish
    · obtain ⟨rfl, rfl⟩ := List.append_eq_nil_iff.mp hreports.symm
      rw [hagain] at hturn
      obtain ⟨hnext, rfl, -⟩ := Reply.done.inj hturn
      obtain rfl := Turn.again.inj hnext
      exact ih hlater

/-- While an outline is carried out on some lexemes, a certain parser is called where the lexemes
of a place are unread. -/
inductive Outline.Reaches {β : Type} (goal : Parser β) (place : List Lexeme) :
    {α : Type} → {allowance : Allowance} → {known : Option Lexeme} → {parser : Parser α} →
      Outline allowance known parser → List Lexeme → Prop
  | here {allowance : Allowance} {known : Option Lexeme}
    (outline : Outline allowance known goal) : Reaches goal place outline place
  /-- In the first of two parts. -/
  | first {α γ : Type} {allowance : Allowance} {known : Option Lexeme} {parser : Parser α}
    {next : α → Parser γ} {outline : Outline allowance known parser}
    {following : ∀ value, Outline allowance none (next value)} {unread : List Lexeme} :
    Reaches goal place outline unread → Reaches goal place (.bind outline following) unread
  /-- In what follows the first of two parts. -/
  | behind {α γ : Type} {allowance : Allowance} {known : Option Lexeme} {parser : Parser α}
    {next : α → Parser γ} {outline : Outline allowance known parser}
    {following : ∀ value, Outline allowance none (next value)} {unread rest : List Lexeme}
    {value : α} {reports : List Report} : parser unread = .done value rest reports →
    Reaches goal place (following value) rest → Reaches goal place (.bind outline following) unread
  | affirmed {α : Type} {allowance : Allowance} {known : Option Lexeme} {yes no : Parser α}
    {condition : Prop} [Decidable condition] {affirmed : condition → Outline allowance known yes}
    {denied : ¬condition → Outline allowance known no} {unread : List Lexeme}
    (hcondition : condition) : Reaches goal place (affirmed hcondition) unread →
    Reaches goal place (.cond condition affirmed denied) unread
  | denied {α : Type} {allowance : Allowance} {known : Option Lexeme} {yes no : Parser α}
    {condition : Prop} [Decidable condition] {affirmed : condition → Outline allowance known yes}
    {denied : ¬condition → Outline allowance known no} {unread : List Lexeme}
    (hcondition : ¬condition) : Reaches goal place (denied hcondition) unread →
    Reaches goal place (.cond condition affirmed denied) unread
  | anyway {α : Type} {allowance : Allowance} {known : Option Lexeme} {parser : Parser α}
    {outline : Outline allowance none parser} {unread : List Lexeme} :
    Reaches goal place outline unread →
    Reaches goal place (.anyway outline : Outline allowance known parser) unread
  | lookEnd {α : Type} {allowance : Allowance} {known : Option Lexeme}
    {next : Option Lexeme → Parser α} {atEnd : Outline allowance none (next none)}
    {before : ∀ lexeme, Outline allowance (some lexeme) (next (some lexeme))} :
    Reaches goal place atEnd [] →
    Reaches goal place (.look atEnd before : Outline allowance known _) []
  | look {α : Type} {allowance : Allowance} {known : Option Lexeme}
    {next : Option Lexeme → Parser α} {atEnd : Outline allowance none (next none)}
    {before : ∀ lexeme, Outline allowance (some lexeme) (next (some lexeme))} {lexeme : Lexeme}
    {rest : List Lexeme} : Reaches goal place (before lexeme) (lexeme :: rest) →
    Reaches goal place (.look atEnd before : Outline allowance known _) (lexeme :: rest)
  /-- In a round of a repetition. -/
  | round {σ : Type} {allowance : Allowance} {round : σ → Parser (Turn σ)} {chain : Bool}
    {state held : σ} {outline : ∀ state, Outline allowance none (round state)}
    {unread rest : List Lexeme} :
    RoundsTo round state unread held rest → Reaches goal place (outline held) rest →
    Reaches goal place (.repeating chain state outline) unread
  | nested {α : Type} {lists literals : Bool} {levels : Nat} {layer : Layer}
    {parser : Layer → Parser α} {outline : Outline ⟨lists, levels, literals⟩ none (parser layer)}
    {unread : List Lexeme} :
    Reaches goal place outline unread → Reaches goal place outline.nested unread
  | recovered {allowance : Allowance} {parser : Parser Statement}
    {outline : Outline allowance none parser} {unread : List Lexeme} :
    Reaches goal place outline unread → Reaches goal place outline.recovered unread
  | passing {α : Type} {allowance : Allowance} {parser : Parser α}
    {outline : Outline allowance none parser} {unread : List Lexeme} :
    Reaches goal place outline unread → Reaches goal place outline.passing unread
  | boundary {α : Type} {levels : Nat} {literals : Bool} {parser : Parser α}
    {outline : Outline ⟨true, levels, literals⟩ none parser} {unread : List Lexeme} :
    Reaches goal place outline unread → Reaches goal place outline.boundary unread
  | plain {α : Type} {levels : Nat} {literals : Bool} {known : Option Lexeme} {parser : Parser α}
    {outline : Outline ⟨false, levels, literals⟩ known parser} {unread : List Lexeme} :
    Reaches goal place outline unread → Reaches goal place outline.plain unread
  | allowing {α : Type} {lists literals allowed : Bool} {levels : Nat} {parser : Parser α}
    {outline : Outline ⟨lists, levels, allowed⟩ none parser} {unread : List Lexeme} :
    Reaches goal place outline unread →
    Reaches goal place (.allowing allowed outline : Outline ⟨lists, levels, literals⟩ none parser)
      unread
  | asking {α : Type} {allowance : Allowance} {next : Bool → Parser α}
    {outline : ∀ answer, Outline allowance none (next answer)} {unread : List Lexeme} :
    Reaches goal place (outline allowance.literals) unread →
    Reaches goal place (.asking next outline) unread
  | call {α : Type} {allowance : Allowance} {parser : Parser α}
    {outline : Outline allowance none parser} {unread : List Lexeme} :
    Reaches goal place outline unread → Reaches goal place outline.call unread

/-- No parser is called where more is unread than there was at first. -/
theorem Outline.Reaches.suffix {α β : Type} {goal : Parser β} {place unread : List Lexeme}
    {allowance : Allowance} {known : Option Lexeme} {parser : Parser α}
    {outline : Outline allowance known parser} (hreaches : outline.Reaches goal place unread) :
    place <:+ unread := by
  induction hreaches with
  | here => exact List.suffix_refl _
  | @behind _ _ _ _ _ _ outline _ _ _ _ _ hdone _ ih =>
    exact ih.trans (outline.runs.suffix hdone)
  | @round _ _ _ _ _ _ outline _ _ hrounds _ ih =>
    exact ih.trans (hrounds.suffix fun state => (outline state).runs)
  | first _ ih | affirmed _ _ ih | denied _ _ ih | anyway _ ih | lookEnd _ ih | look _ ih
  | nested _ ih | recovered _ ih | passing _ ih | boundary _ ih | plain _ ih
  | allowing _ ih | asking _ ih | call _ ih => exact ih

end BraceLang
