import BraceLang.Proofs.Machine.Twins

/-!
# Room for calls

How many calls an outline opens inside one another can be told from its parts, except for the chains
in it: the rounds of a chain are calls inside one another, and there are as many as the input has
further branches in a row. What a chain needs is paid for by the input. Each of its rounds passes
the two words that begin a further branch, and so the room that is left is as much as before if one
call is allowed for each of those that are unread.
-/

namespace BraceLang

/-- How many further branches begin in a row of lexemes: the word for what happens otherwise, and
the word for a condition behind it. -/
def links : List Lexeme → Nat
  | [] => 0
  | lexeme :: rest =>
    (lexeme.isWordOf ["else"] && rest.head?.any (·.isWordOf ["if"])).toNat + links rest

/-- Behind a part of the lexemes no more branches begin. -/
theorem links_le_of_suffix {unread rest : List Lexeme} (hsuffix : rest <:+ unread) :
    links rest ≤ links unread := by
  induction unread with
  | nil => rw [List.suffix_nil.mp hsuffix]
  | cons lexeme unread ih =>
    rcases List.suffix_cons_iff.mp hsuffix with rfl | hless
    · exact Nat.le_refl _
    · exact (ih hless).trans (Nat.le_add_left _ _)

namespace Machine

variable {α β σ : Type} {setting : Setting} {state behind : State}

section Passing

/-- The machine passes tokens, and never an end token, and does nothing else to what is unread. -/
theorem carryOut_isLeft {allowance : Allowance} {known : Option Lexeme} {parser : Parser α}
    (outline : Outline allowance known parser) {opened : Nat} {value : α}
    (hdone : outline.carryOut setting opened state = .done value behind) :
    IsLeft state.unread behind.unread := by
  have htail {unread : List Token} (hleft : IsLeft state.unread unread)
      (hinside : Input.isInside (setting.current unread) = true) :
      IsLeft state.unread unread.tail := by
    cases unread with
    | nil => exact hleft
    | cons token rest => exact hleft.tail hinside
  let correspondence := Correspondence.same setting (IsLeft state.unread) (fun _ _ => True) htail
    fun _ => trivial
  have htwins : state.Twins correspondence state := ⟨⟨rfl, .refl _⟩, rfl, rfl, trivial⟩
  have houtcome := outline.carryOut_twins opened htwins
  rw [hdone] at houtcome
  cases houtcome with
  | done hbehind => exact hbehind.unread.2

/-- No more branches begin behind a part of the input. -/
theorem links_carryOut_le {allowance : Allowance} {known : Option Lexeme} {parser : Parser α}
    (outline : Outline allowance known parser) {opened : Nat} {value : α}
    (hdone : outline.carryOut setting opened state = .done value behind) :
    links (lexemesOf behind.unread) ≤ links (lexemesOf state.unread) :=
  links_le_of_suffix (carryOut_isLeft outline hdone).lexemes_suffix

end Passing

/-- So many calls may be open at once. -/
def Setting.RoomFor (setting : Setting) (calls : Nat) : Prop := ∀ most ∈ setting.limit, calls ≤ most

/-- So may fewer. -/
theorem Setting.RoomFor.mono {calls more : Nat} (hroom : setting.RoomFor more)
    (hmore : calls ≤ more) : setting.RoomFor calls :=
  fun most hmost => hmore.trans (hroom most hmost)

/-- Behind fewer calls another one may be opened. -/
theorem Setting.RoomFor.hasRoom {opened : Nat} (hroom : setting.RoomFor (opened + 1)) :
    setting.hasRoom opened = true := by
  rw [Setting.hasRoom]
  cases hlimit : setting.limit with
  | none => rfl
  | some most => exact decide_eq_true (hroom most hlimit)

/-- A machine has come to something else than the end of its room. -/
def Outcome.HasRoom (outcome : Outcome α) : Prop := outcome ≠ .stopped .exhausted

/-- A round of a chain finds room, and if the chain goes on there is a branch less behind it. -/
def Outcome.IsLink (outcome : Outcome (Turn σ)) (unread : List Token) : Prop :=
  outcome.HasRoom ∧ ∀ next behind, outcome = .done (.again next) behind →
    links (lexemesOf behind.unread) < links (lexemesOf unread)

namespace Outcome.HasRoom

variable {outcome : Outcome α}

/-- A value leaves room. -/
theorem done (value : α) (state : State) : (Outcome.done value state).HasRoom := by
  intro hshort
  cases hshort

/-- So does a failure. -/
theorem failed (finding : Finding) (state : State) :
    (Outcome.failed finding state : Outcome α).HasRoom := by
  intro hshort
  cases hshort

/-- And another reason to stop. -/
theorem stopped {halt : Halt} (hhalt : halt ≠ .exhausted) :
    (Outcome.stopped halt : Outcome α).HasRoom := by
  intro hshort
  cases hshort
  exact hhalt rfl

/-- What follows a value has to find room behind it. -/
theorem bind {next : α → State → Outcome β} (houtcome : outcome.HasRoom)
    (hnext : ∀ value behind, outcome = .done value behind → (next value behind).HasRoom) :
    (outcome.bind next).HasRoom := by
  cases outcome with
  | done value state => exact hnext value state rfl
  | failed finding state => exact failed finding state
  | stopped halt =>
    intro hshort
    cases hshort
    exact houtcome rfl

/-- A change of the state leaves room. -/
theorem mapState (change : State → State) (houtcome : outcome.HasRoom) :
    (outcome.mapState change).HasRoom := by
  cases outcome with
  | done value state => exact done value _
  | failed finding state => exact failed finding _
  | stopped halt =>
    intro hshort
    cases hshort
    exact houtcome rfl

/-- So does the recovery from a failure. -/
theorem recovered {outcome : Outcome Statement} (houtcome : outcome.HasRoom) :
    outcome.recovered.HasRoom := by
  cases outcome with
  | done value state => exact done value state
  | failed finding state => exact done _ state
  | stopped halt => exact houtcome

/-- And passing a token behind everything else. -/
theorem passing (setting : Setting) (unread : List Token) (houtcome : outcome.HasRoom) :
    (outcome.passing setting unread).HasRoom := by
  cases outcome with
  | done value state => exact done value _
  | failed finding state => exact failed finding state
  | stopped halt => exact houtcome

/-- Every round finds room if the first one does, and those behind it have not more to open: in a
chain a call is open for every round, and a branch less is unread. -/
theorem rounds {chain : Bool} {round : σ → Nat → State → Outcome (Turn σ)} {calls : Nat}
    (hround : ∀ held opened state,
      setting.RoomFor (opened + calls + links (lexemesOf state.unread)) →
      (round held opened state).HasRoom ∧ ∀ next behind,
        round held opened state = .done (.again next) behind →
          chain.toNat + links (lexemesOf behind.unread) ≤ links (lexemesOf state.unread))
    (fuel : List Token) (held : σ) (opened : Nat) (state : State)
    (hroom : setting.RoomFor (opened + calls + links (lexemesOf state.unread))) :
    (Outcome.rounds chain round fuel held opened state).HasRoom := by
  induction fuel generalizing held opened state with
  | nil =>
    obtain ⟨hfirst, -⟩ := hround held opened state hroom
    refine hfirst.bind ?_
    rintro (next | last) behind -
    · exact .stopped (by simp)
    · exact done last behind
  | cons token fuel ih =>
    obtain ⟨hfirst, hagain⟩ := hround held opened state hroom
    refine hfirst.bind ?_
    rintro (next | last) behind hbehind
    · have hlinks := hagain next behind hbehind
      exact ih next _ behind (hroom.mono (by omega))
    · exact done last behind

end Outcome.HasRoom

end Machine

open Machine

/-- So many calls are open at once at most while an outline is carried out, apart from one for each
further branch that is unread. -/
def Outline.CallsAtMost {α : Type} {allowance : Allowance} {known : Option Lexeme}
    {parser : Parser α} : Outline allowance known parser → Nat → Prop
  | .bind outline next, calls => outline.CallsAtMost calls ∧ ∀ value, (next value).CallsAtMost calls
  | @Outline.cond _ _ _ _ _ condition _ yes no, calls =>
    (∀ hcondition : condition, (yes hcondition).CallsAtMost calls) ∧
      ∀ hcondition : ¬condition, (no hcondition).CallsAtMost calls
  | .look atEnd before, calls =>
    atEnd.CallsAtMost calls ∧ ∀ lexeme, (before lexeme).CallsAtMost calls
  | .anyway outline, calls | .boundary outline, calls | .plain outline, calls
  | .nested outline, calls | .recovered outline, calls | .passing outline, calls
  | .allowing _ outline, calls => outline.CallsAtMost calls
  | .asking _ outline, calls => ∀ answer, (outline answer).CallsAtMost calls
  | .repeating false _ round, calls => ∀ held, (round held).CallsAtMost calls
  | .repeating true _ round, calls => ∀ held (setting : Setting) opened state,
    setting.RoomFor (opened + calls + links (lexemesOf state.unread)) →
      ((round held).carryOut setting opened state).IsLink state.unread
  | .call outline, calls => 0 < calls ∧ outline.CallsAtMost (calls - 1)
  | _, _ => True

namespace Outline

variable {α : Type} {allowance : Allowance} {known : Option Lexeme} {parser : Parser α}

/-- Where more calls are allowed there are not more. -/
theorem CallsAtMost.mono {outline : Outline allowance known parser} {calls more : Nat}
    (hcalls : outline.CallsAtMost calls) (hmore : calls ≤ more) : outline.CallsAtMost more := by
  induction outline generalizing calls more with
  | pure | second | both | advance | complain | reject | rejectPassing | numeral | tooDeep =>
    trivial
  | bind outline next ihOutline ihNext =>
    exact ⟨ihOutline hcalls.1 hmore, fun value => ihNext value (hcalls.2 value) hmore⟩
  | cond condition yes no ihYes ihNo =>
    exact ⟨fun hcondition => ihYes hcondition (hcalls.1 hcondition) hmore,
      fun hcondition => ihNo hcondition (hcalls.2 hcondition) hmore⟩
  | look atEnd before ihNone ihSome =>
    exact ⟨ihNone hcalls.1 hmore, fun lexeme => ihSome lexeme (hcalls.2 lexeme) hmore⟩
  | anyway _ ih | boundary _ ih | plain _ ih | nested _ ih | recovered _ ih | passing _ ih
  | allowing _ _ ih => exact ih hcalls hmore
  | asking next _ ih => exact fun answer => ih answer (hcalls answer) hmore
  | repeating chain held round ih =>
    cases chain with
    | false => exact fun held => ih held (hcalls held) hmore
    | true =>
      intro held setting opened state hroom
      exact hcalls held setting opened state (hroom.mono (by omega))
  | call _ ih =>
    exact ⟨Nat.lt_of_lt_of_le hcalls.1 hmore, ih hcalls.2 (Nat.sub_le_sub_right hmore 1)⟩

/-- An outline finds room where as many calls may be opened as it opens, and one for each further
branch that is unread. The induction is on the outline; each part of it begins behind the parts in
front of it, where no more branches are unread. -/
theorem CallsAtMost.hasRoom {outline : Outline allowance known parser} {calls : Nat}
    (hcalls : outline.CallsAtMost calls) {setting : Setting} (opened : Nat) (state : State)
    (hroom : setting.RoomFor (opened + calls + links (lexemesOf state.unread))) :
    (outline.carryOut setting opened state).HasRoom := by
  induction outline generalizing calls opened state with
  | pure value => exact .done value state
  | bind outline next ihOutline ihNext =>
    refine (ihOutline hcalls.1 opened state hroom).bind fun value behind hbehind => ?_
    have hlinks := links_carryOut_le outline hbehind
    exact ihNext value (hcalls.2 value) opened behind (hroom.mono (by omega))
  | cond condition yes no ihYes ihNo =>
    rw [carryOut]
    split
    · next hcondition => exact ihYes hcondition (hcalls.1 hcondition) opened state hroom
    · next hcondition => exact ihNo hcondition (hcalls.2 hcondition) opened state hroom
  | anyway _ ih | boundary _ ih | plain _ ih => exact ih hcalls opened state hroom
  | look atEnd before ihNone ihSome =>
    rw [carryOut]
    split
    · exact ihNone hcalls.1 opened state hroom
    · next lexeme _ => exact ihSome lexeme (hcalls.2 lexeme) opened state hroom
  | second | both | advance | complain => exact .done _ _
  | reject | rejectPassing => exact .failed _ _
  | numeral text =>
    rw [carryOut]
    split
    · exact .done _ _
    · exact .stopped (by simp)
  | repeating chain held round ih =>
    refine .rounds (fun held opened state hroom => ?_) state.unread held opened state hroom
    cases chain with
    | false =>
      refine ⟨ih held (hcalls held) opened state hroom, fun next behind hbehind => ?_⟩
      rw [Bool.toNat_false, Nat.zero_add]
      exact links_carryOut_le (round held) hbehind
    | true =>
      obtain ⟨hround, hagain⟩ := hcalls held setting opened state hroom
      refine ⟨hround, fun next behind hbehind => ?_⟩
      rw [Bool.toNat_true, Nat.add_comm]
      exact hagain next behind hbehind
  | nested outline ih =>
    rw [carryOut, State.deeper]
    split
    · exact .mapState _ (ih hcalls opened _ hroom)
    · exact .failed _ _
  | tooDeep parser =>
    rw [carryOut, State.deeper]
    split
    · exact .stopped (by simp)
    · exact .failed _ _
  | recovered _ ih => exact .recovered (ih hcalls opened state hroom)
  | passing _ ih => exact .passing _ _ (ih hcalls opened state hroom)
  | allowing allowed _ ih => exact .mapState _ (ih hcalls opened _ hroom)
  | asking next _ ih => exact ih _ (hcalls _) opened state hroom
  | call _ ih =>
    obtain ⟨hpositive, hinner⟩ := hcalls
    have hcall : setting.RoomFor (opened + 1) := hroom.mono (by omega)
    rw [carryOut, if_pos hcall.hasRoom]
    exact ih hinner (opened + 1) state (hroom.mono (by omega))

end Outline

end BraceLang
