import Mathlib.Data.ENat.Lattice
import Treewalk.Proofs.Limits
import Treewalk.Proofs.Profile

/-!
## Cancellation and budgets

A hook and a budget end a run at one checkpoint that can be told in advance, and otherwise they
change nothing. For a fresh context it is the checkpoint with the number `Context.cutoff`, counted
from zero: that of the first question to which the hook says yes, or the first one that the budget
does not cover, whichever comes first.

* `interruption?_after_of_lt`, `interruption?_after_of_eq`: checkpoints before the cutoff are
  passed, and the one at the cutoff is not.
* `yields_or_diverges`: a run, followed for longer and longer, comes to an end or it does not.
* `runProgram_cutoff`: the run of a program in a fresh context is that without hook and budget,
  cut at the cutoff.
-/

namespace Treewalk

open Eval

variable {D : Domain}

/-! ### The cutoff of a context -/

namespace Context

variable {c : Context} {n k : Nat} {site : String}

/-- The context, if it was fresh, after it has met `n` checkpoints. -/
def after (c : Context) (n : Nat) : Context :=
  { c with steps := n, polls := if c.hook.isSome then n else 0 }

/-- The number of the first question to which the hook says yes. -/
noncomputable def firstCancel (c : Context) : ℕ∞ :=
  ⨅ i ∈ {i : ℕ | ∃ hook, c.hook = some hook ∧ hook i = true}, (i : ℕ∞)

/-- The number of checkpoints that the budget covers. -/
def allowance (c : Context) : ℕ∞ :=
  match c.budget with
  | some budget => (budget.toNat : ℕ∞)
  | none => ⊤

/-- The number of checkpoints that a fresh context passes. -/
noncomputable def cutoff (c : Context) : ℕ∞ :=
  min c.firstCancel c.allowance

open Classical in
/-- Why a run ends at checkpoint `k`, if that is the cutoff. -/
noncomputable def cutFailure (c : Context) (k : Nat) (site : String)
    (D : Domain := .integers) : Failure D :=
  if c.firstCancel ≤ c.allowance then .cancelled (k + 1) site
  else .budgetExhausted (c.budget.getD 0) site

theorem after_zero (hsteps : c.steps = 0) (hpolls : c.polls = 0) : c.after 0 = c := by
  cases c
  simp only at hsteps hpolls
  simp [after, hsteps, hpolls]

theorem advance_after (c : Context) (n : Nat) : (c.after n).advance = c.after (n + 1) := by
  unfold after advance
  cases c.hook <;> rfl

theorem firstCancel_le_iff : c.firstCancel ≤ n
    ↔ ∃ i ≤ n, ∃ hook, c.hook = some hook ∧ hook i = true := by
  constructor
  · intro h
    by_contra hnone
    have hle : ((n + 1 : ℕ) : ℕ∞) ≤ c.firstCancel := by
      refine le_iInf₂ fun i hi => Nat.cast_le.mpr ?_
      by_contra hlt
      exact hnone ⟨i, by omega, hi⟩
    have := Nat.cast_le.mp (hle.trans h)
    omega
  · rintro ⟨i, hi, hhook⟩
    exact (iInf₂_le i hhook).trans (Nat.cast_le.mpr hi)

theorem lt_allowance_iff : (n : ℕ∞) < c.allowance
    ↔ ∀ budget, c.budget = some budget → (n : Int) + 1 ≤ budget := by
  unfold allowance
  cases c.budget with
  | none => simp
  | some budget =>
    rw [Nat.cast_lt]
    simp only [Option.some.injEq, forall_eq']
    omega

theorem cancels_after : (c.after n).cancels = true
    ↔ ∃ hook, c.hook = some hook ∧ hook n = true := by
  unfold cancels after
  cases c.hook <;> simp

/-- **Checkpoints before the cutoff are passed.** -/
theorem interruption?_after_of_lt (h : (n : ℕ∞) < c.cutoff) :
    (c.after n).interruption? site D = none := by
  obtain ⟨hcancel, hallowance⟩ := lt_min_iff.mp h
  have hno : ¬ (c.after n).cancels = true := by
    rw [cancels_after]
    intro hyes
    exact absurd (firstCancel_le_iff.mpr ⟨n, Nat.le_refl n, hyes⟩) (not_le.mpr hcancel)
  rw [interruption?, if_neg hno]
  show (match c.budget with
    | some budget => if budget < (n : Int) + 1 then _ else none
    | none => none) = none
  cases hbudget : c.budget with
  | none => rfl
  | some budget =>
    have := lt_allowance_iff.mp hallowance budget hbudget
    exact if_neg (by omega)

/-- **The checkpoint at the cutoff is not passed**, for the hook if it says yes there. -/
theorem interruption?_after_of_eq (h : c.cutoff = k) :
    (c.after k).interruption? site D = some (c.cutFailure k site D) := by
  by_cases hle : c.firstCancel ≤ c.allowance
  · -- the hook says yes at the cutoff and not before it
    have hfirst : c.firstCancel = k := by rwa [cutoff, min_eq_left hle] at h
    have hyes : (c.after k).cancels = true := by
      obtain ⟨i, hi, hhook⟩ := firstCancel_le_iff.mp hfirst.le
      have hki : k ≤ i := by
        have := firstCancel_le_iff.mpr ⟨i, Nat.le_refl i, hhook⟩
        rw [hfirst] at this
        exact Nat.cast_le.mp this
      obtain rfl := Nat.le_antisymm hi hki
      exact cancels_after.mpr hhook
    rw [interruption?, if_pos hyes, cutFailure, if_pos hle]
    rfl
  · -- the hook says no up to the cutoff, which the budget does not cover
    have hlt := not_le.mp hle
    have hallowance : c.allowance = k := by rwa [cutoff, min_eq_right hlt.le] at h
    have hno : ¬ (c.after k).cancels = true := by
      rw [cancels_after]
      intro hyes
      have := firstCancel_le_iff.mpr ⟨k, Nat.le_refl k, hyes⟩
      exact absurd (this.trans hallowance.ge) (not_le.mpr hlt)
    rw [interruption?, if_neg hno, cutFailure, if_neg hle]
    show (match c.budget with
      | some budget => if budget < (k : Int) + 1 then _ else none
      | none => none) = _
    cases hbudget : c.budget with
    | none => simp [allowance, hbudget] at hallowance
    | some budget =>
      have hover : ¬ (k : ℕ∞) < c.allowance := by simp [hallowance]
      rw [lt_allowance_iff] at hover
      simp only [hbudget, Option.some.injEq, forall_eq', not_le] at hover
      exact if_pos hover

/-- The failure at the cutoff tells the number of the checkpoint or the budget. -/
theorem message_cutFailure (c : Context) (g : Graph) (k : Nat) (site : String) :
    (c.firstCancel ≤ c.allowance → (c.cutFailure k site D).message g
      = s!"Evaluation cancelled after {k + 1} steps")
    ∧ ∀ budget, c.budget = some budget → c.allowance < c.firstCancel →
      (c.cutFailure k site D).message g = s!"Step budget of {budget} exhausted" := by
  constructor
  · intro hle
    rw [cutFailure, if_pos hle]
    rfl
  · intro budget hbudget hlt
    rw [cutFailure, if_neg (not_le.mpr hlt), hbudget]
    rfl

end Context

/-! ### Playing a profile in a fresh context -/

namespace Profile

variable {α : Type} (next : Context → EStateM.Result (Halt D) (Machine D) α) {cuts : List (Cut D)}
  {c : Context} {n k : Nat} {cut : Cut D}

theorem playCuts_of_le_cutoff (h : ((n + cuts.length : ℕ) : ℕ∞) ≤ c.cutoff) :
    playCuts next cuts (c.after n) = next (c.after (n + cuts.length)) := by
  induction cuts generalizing n with
  | nil => rfl
  | cons cut cuts ih =>
    rw [List.length_cons] at h ⊢
    have hlt : (n : ℕ∞) < c.cutoff :=
      lt_of_lt_of_le (Nat.cast_lt.mpr (by omega)) h
    rw [playCuts, Context.interruption?_after_of_lt hlt, Context.advance_after]
    rw [show n + (cuts.length + 1) = n + 1 + cuts.length by omega] at h ⊢
    exact ih h

theorem playCuts_of_cutoff_eq (hk : c.cutoff = k) (hn : n ≤ k) (hcut : cuts[k - n]? = some cut) :
    playCuts next cuts (c.after n)
      = .error (.failure ⟨c.cutFailure k cut.site D, cut.statement⟩)
        ⟨cut.env, some (c.after (k + 1)), cut.log⟩ := by
  induction cuts generalizing n with
  | nil => cases hcut
  | cons first cuts ih =>
    rw [playCuts]
    rcases Nat.eq_or_lt_of_le hn with rfl | hlt
    · obtain rfl : first = cut := by simpa using hcut
      rw [Context.interruption?_after_of_eq hk, Context.advance_after]
    · have hpass : (n : ℕ∞) < c.cutoff := by rwa [hk, Nat.cast_lt]
      rw [Context.interruption?_after_of_lt hpass, Context.advance_after]
      refine ih hlt ?_
      rwa [show k - n = k - (n + 1) + 1 by omega, List.getElem?_cons_succ] at hcut

end Profile

/-! ### Runs that are followed for longer and longer -/

namespace Host

variable {h : Host D} {program : Value} {m : Machine D} {outcome : Outcome (List D.Val) D}
  {rounds rounds' : Nat}

/-- What the run of a program leaves if its loops are followed for `rounds` rounds. -/
def outcomeWithin (h : Host D) (rounds : Nat) (program : Value) (m : Machine D) :
    Outcome (List D.Val) D :=
  (({ h with rounds := rounds } : Host D).runProgram program).carryOut m

/-- Followed for long enough, the run of a program comes to its end and leaves `outcome`. -/
def Yields (h : Host D) (program : Value) (m : Machine D) (outcome : Outcome (List D.Val) D) :
    Prop :=
  outcome.result ≠ .error .unfinished
    ∧ ∃ enough, ∀ rounds ≥ enough, h.outcomeWithin rounds program m = outcome

/-- However long it is followed, the run of a program does not come to its end. -/
def Diverges (h : Host D) (program : Value) (m : Machine D) : Prop :=
  ∀ rounds, (h.outcomeWithin rounds program m).result = .error .unfinished

/-- **A run that has come to its end is not changed by being followed for longer.** -/
theorem outcomeWithin_of_le (hle : rounds ≤ rounds')
    (hended : (h.outcomeWithin rounds program m).result ≠ .error .unfinished) :
    h.outcomeWithin rounds' program m = h.outcomeWithin rounds program m := by
  have hcontinues := ({ h with rounds := rounds } : Host D).runProgram_continues (· = .unfinished)
    (· = .unfinished) hle (fun _ => rfl) (Nat.le_refl h.nesting)
    (fun hlt => absurd hlt (Nat.lt_irrefl _)) program
    (fun index v halt => blamed_eq_unfinished_iff.mpr)
  refine hcontinues.carryOut_eq fun halt hhalt hu => hended ?_
  rw [← hu]
  exact hhalt

theorem yields_of_outcomeWithin (hrun : h.outcomeWithin rounds program m = outcome)
    (hended : outcome.result ≠ .error .unfinished) : h.Yields program m outcome := by
  refine ⟨hended, rounds, fun rounds' hle => ?_⟩
  rw [outcomeWithin_of_le hle (by rwa [hrun]), hrun]

theorem yields_or_diverges (h : Host D) (program : Value) (m : Machine D) :
    (∃ outcome, h.Yields program m outcome) ∨ h.Diverges program m := by
  by_cases hended : ∃ rounds, (h.outcomeWithin rounds program m).result ≠ .error .unfinished
  · obtain ⟨rounds, hended⟩ := hended
    exact .inl ⟨_, yields_of_outcomeWithin rfl hended⟩
  · exact .inr fun rounds => by_contra fun hne => hended ⟨rounds, hne⟩

/-! ### Runs in fresh contexts -/

/-- What is left of a run that is cut at the cutoff of its context. -/
noncomputable def cutOutcome (c : Context) (k : Nat) (cut : Cut D) : Outcome (List D.Val) D where
  result := .error (.failure ⟨c.cutFailure k cut.site D, cut.statement⟩)
  machine := ⟨cut.env, some (c.after (k + 1)), cut.log⟩

theorem cutOutcome_ended (c : Context) (k : Nat) (cut : Cut D) :
    (cutOutcome c k cut).result ≠ .error .unfinished := by
  simp [cutOutcome]

/-- A profile plays the run of the program on a machine with the given environment and log. -/
def PlaysProgram (h : Host D) (rounds : Nat) (program : Value) (env : Env D) (log : Log D)
    (sink : Sink) (p : Profile (List D.Val) D) : Prop :=
  (∀ c : Context, c.sink = sink →
    ({ h with rounds := rounds } : Host D).runProgram program ⟨env, some c, log⟩ = p.play c)
    ∧ p.GrowsFrom log ∧ (p.result = .error .unfinished → rounds ≤ p.cuts.length)

variable {env : Env D} {log : Log D} {sink : Sink} {p p' : Profile (List D.Val) D}
  {c : Context} {k : Nat} {cut cut' : Cut D}

/-- A run that meets no more checkpoints than it may pass comes to the end of its profile. -/
theorem outcomeWithin_of_le_cutoff (hplays : h.PlaysProgram rounds program env log sink p)
    (hsink : c.sink = sink) (hfresh : c.after 0 = c) (hle : (p.cuts.length : ℕ∞) ≤ c.cutoff) :
    h.outcomeWithin rounds program ⟨env, some c, log⟩
      = ⟨p.result, ⟨p.env, some (c.after p.cuts.length), p.log⟩⟩ := by
  have hplay : p.play c = p.finish (c.after p.cuts.length) := by
    rw [← Nat.zero_add p.cuts.length] at hle
    have hall := Profile.playCuts_of_le_cutoff p.finish hle
    rwa [hfresh, Nat.zero_add] at hall
  rw [outcomeWithin, carryOut, hplays.1 c hsink, hplay, Profile.finish]
  cases p.result <;> rfl

/-- A run that meets a checkpoint at the cutoff is cut there. -/
theorem outcomeWithin_of_cutoff_eq (hplays : h.PlaysProgram rounds program env log sink p)
    (hsink : c.sink = sink) (hfresh : c.after 0 = c) (hk : c.cutoff = k)
    (hcut : p.cuts[k]? = some cut) :
    h.outcomeWithin rounds program ⟨env, some c, log⟩ = cutOutcome c k cut := by
  have hplay := Profile.playCuts_of_cutoff_eq p.finish hk (Nat.zero_le k) hcut
  rw [hfresh] at hplay
  rw [outcomeWithin, carryOut, hplays.1 c hsink, Profile.play, hplay]
  rfl

theorem cutoff_of_budget (sink : Sink) (k : Nat) :
    ({ sink := sink, budget := some k } : Context).cutoff = k := by
  simp [Context.cutoff, Context.firstCancel, Context.allowance]

theorem cutoff_free (sink : Sink) : ({ sink := sink } : Context).cutoff = ⊤ := by
  simp [Context.cutoff, Context.firstCancel, Context.allowance]

/-- What is left at a checkpoint does not depend on how long the run is followed after it: a
budget ends the run there. -/
theorem cut_unique (hplays : h.PlaysProgram rounds program env log sink p)
    (hplays' : h.PlaysProgram rounds' program env log sink p') (hcut : p.cuts[k]? = some cut)
    (hcut' : p'.cuts[k]? = some cut') : cut = cut' := by
  wlog hle : rounds ≤ rounds' generalizing rounds rounds' p p' cut cut'
  · exact (this hplays' hplays hcut' hcut (Nat.le_of_not_le hle)).symm
  -- the budget covers `k` checkpoints, so it cuts both runs at the next one
  have hk := cutoff_of_budget sink k
  have hout := outcomeWithin_of_cutoff_eq hplays rfl rfl hk hcut
  have hout' := outcomeWithin_of_cutoff_eq hplays' rfl rfl hk hcut'
  rw [outcomeWithin_of_le hle (by rw [hout]; exact cutOutcome_ended _ _ _), hout] at hout'
  have hno : ¬ ({ sink := sink, budget := some k } : Context).firstCancel
      ≤ ({ sink := sink, budget := some k } : Context).allowance := by
    simp [Context.firstCancel, Context.allowance]
  simp only [cutOutcome, Context.cutFailure, if_neg hno, Outcome.mk.injEq, Except.error.injEq,
    Halt.failure.injEq, RuntimeError.mk.injEq, Failure.budgetExhausted.injEq,
    Machine.mk.injEq] at hout'
  obtain ⟨⟨⟨-, hsite⟩, hstatement⟩, henv, -, hlog⟩ := hout'
  cases cut
  cases cut'
  simp_all

theorem exists_cuts (h : Host D) (program : Value) (env : Env D) (log : Log D) (sink : Sink) :
    ∃ cuts : Nat → Cut D, ∀ rounds p, h.PlaysProgram rounds program env log sink p →
      ∀ (k : Nat) cut, p.cuts[k]? = some cut → cut = cuts k := by
  classical
  have hchoice : ∀ k : Nat, ∃ chosen : Cut D, ∀ rounds p,
      h.PlaysProgram rounds program env log sink p →
      ∀ cut, p.cuts[k]? = some cut → cut = chosen := by
    intro k
    -- some run, followed for long enough, passes checkpoint `k`, or none does
    by_cases hsome : ∃ rounds p cut, h.PlaysProgram rounds program env log sink p
        ∧ p.cuts[k]? = some cut
    · obtain ⟨rounds, p, chosen, hplays, hchosen⟩ := hsome
      exact ⟨chosen, fun rounds' p' hplays' cut hcut => cut_unique hplays' hplays hcut hchosen⟩
    · exact ⟨default, fun rounds p hplays cut hcut => absurd ⟨rounds, p, cut, hplays, hcut⟩ hsome⟩
  choose cuts hcuts using hchoice
  exact ⟨cuts, fun rounds p hplays k => hcuts k rounds p hplays⟩

/-! ### The law -/

/-- In any fresh context the run of a program, followed for so long, comes to its end or is cut. -/
theorem exists_playsProgram (h : Host D) (rounds : Nat) (program : Value) (env : Env D)
    (log : Log D) (sink : Sink) : ∃ p, h.PlaysProgram rounds program env log sink p :=
  ({ h with rounds := rounds } : Host D).runProgram_profiled program env log sink

theorem yields_cutOutcome (hplays : h.PlaysProgram rounds program env log sink p)
    (hsink : c.sink = sink) (hfresh : c.after 0 = c) (hk : c.cutoff = k)
    (hcut : p.cuts[k]? = some cut) :
    h.Yields program ⟨env, some c, log⟩ (cutOutcome c k cut) :=
  yields_of_outcomeWithin (outcomeWithin_of_cutoff_eq hplays hsink hfresh hk hcut)
    (cutOutcome_ended c k cut)

/-- Without hook and budget a run comes to the end of its profile. -/
theorem outcomeWithin_free (hplays : h.PlaysProgram rounds program env log sink p) :
    h.outcomeWithin rounds program ⟨env, some { sink := sink }, log⟩ = ⟨p.result,
      ⟨p.env, some (({ sink := sink } : Context).after p.cuts.length), p.log⟩⟩ :=
  outcomeWithin_of_le_cutoff hplays rfl rfl (by simp [cutoff_free])

theorem exists_playsProgram_of_yields
    (hyields : h.Yields program ⟨env, some { sink := sink }, log⟩ outcome) :
    ∃ rounds p, h.PlaysProgram rounds program env log sink p ∧ outcome = ⟨p.result,
      ⟨p.env, some (({ sink := sink } : Context).after p.cuts.length), p.log⟩⟩ := by
  obtain ⟨-, enough, henough⟩ := hyields
  obtain ⟨p, hplays⟩ := h.exists_playsProgram enough program env log sink
  refine ⟨enough, p, hplays, ?_⟩
  rw [← henough enough (Nat.le_refl _), outcomeWithin_free hplays]

/-- A run that does not come to its end passes as many checkpoints as it is followed for rounds. -/
theorem Diverges.unfinished_of_plays
    (hdiverges : h.Diverges program ⟨env, some { sink := sink }, log⟩)
    (hplays : h.PlaysProgram rounds program env log sink p) :
    p.result = .error .unfinished ∧ rounds ≤ p.cuts.length := by
  have hresult := hdiverges rounds
  rw [outcomeWithin_free hplays] at hresult
  exact ⟨hresult, hplays.2.2 hresult⟩

/-- **A hook and a budget cut a run at one checkpoint and change nothing else.** Take the run of any
program, over any domain of values and from any environment, without hook and budget, and what is
left at each checkpoint of a run (`cuts`). In a fresh context with a hook or a budget or both, if
the run without them comes to its end after `s` checkpoints and `s` is at most the cutoff, then so
does the run with them, with the same result, environment and log. If there are more than the cutoff
`k`, or if the run without them does not come to its end, then the run with them fails at checkpoint
`k`: it is cancelled if the hook is the reason, and otherwise its budget is exhausted; what it
leaves is `cuts k`, and its log is the beginning of that of the run without them. In each context
the numbers of checkpoints and questions are those of `Context.after`. -/
theorem runProgram_cutoff (h : Host D) (program : Value) (env : Env D) (log : Log D) (sink : Sink) :
    ((∃ outcome, h.Yields program ⟨env, some { sink := sink }, log⟩ outcome)
      ∨ h.Diverges program ⟨env, some { sink := sink }, log⟩)
    ∧ ∃ cuts : Nat → Cut D, ∀ c : Context, c.sink = sink → c.steps = 0 → c.polls = 0 →
      (∀ outcome, h.Yields program ⟨env, some { sink := sink }, log⟩ outcome →
        ∃ s : Nat, outcome.machine.context = some (({ sink := sink } : Context).after s)
          ∧ ((s : ℕ∞) ≤ c.cutoff → h.Yields program ⟨env, some c, log⟩
            ⟨outcome.result, { outcome.machine with context := some (c.after s) }⟩)
          ∧ ∀ k : Nat, c.cutoff = k → k < s →
            h.Yields program ⟨env, some c, log⟩ (cutOutcome c k (cuts k))
              ∧ ∃ rest, outcome.machine.log = (cuts k).log ++ rest)
      ∧ (h.Diverges program ⟨env, some { sink := sink }, log⟩ →
        (c.cutoff = ⊤ → h.Diverges program ⟨env, some c, log⟩)
          ∧ ∀ k : Nat, c.cutoff = k →
            h.Yields program ⟨env, some c, log⟩ (cutOutcome c k (cuts k))
              ∧ ∀ rounds > k, ∃ rest,
                (h.outcomeWithin rounds program ⟨env, some { sink := sink }, log⟩).machine.log
                  = (cuts k).log ++ rest)
      ∧ ∀ (k : Nat) (site : String),
        (c.firstCancel ≤ c.allowance → (c.cutFailure k site D).message h.graph
          = s!"Evaluation cancelled after {k + 1} steps")
        ∧ ∀ budget, c.budget = some budget → c.allowance < c.firstCancel →
          (c.cutFailure k site D).message h.graph = s!"Step budget of {budget} exhausted" := by
  refine ⟨h.yields_or_diverges program _, ?_⟩
  obtain ⟨cuts, hcuts⟩ := exists_cuts h program env log sink
  refine ⟨cuts, fun c hsink hsteps hpolls => ⟨?_, ?_, c.message_cutFailure h.graph⟩⟩
  · intro outcome hyields
    obtain ⟨rounds, p, hplays, rfl⟩ := exists_playsProgram_of_yields hyields
    have hfresh := Context.after_zero hsteps hpolls
    refine ⟨p.cuts.length, rfl, fun hle => ?_, fun k hk hlt => ?_⟩
    · exact yields_of_outcomeWithin (outcomeWithin_of_le_cutoff hplays hsink hfresh hle)
        hyields.1
    · have hcut := List.getElem?_eq_getElem hlt
      rw [← hcuts rounds p hplays k _ hcut]
      exact ⟨yields_cutOutcome hplays hsink hfresh hk hcut,
        (hplays.2.1.2 _ (List.getElem_mem hlt)).2⟩
  · intro hdiverges
    have hfresh := Context.after_zero hsteps hpolls
    refine ⟨fun htop rounds => ?_, fun k hk => ⟨?_, fun rounds hlt => ?_⟩⟩
    · obtain ⟨p, hplays⟩ := h.exists_playsProgram rounds program env log sink
      rw [outcomeWithin_of_le_cutoff hplays hsink hfresh (by rw [htop]; exact le_top)]
      exact (hdiverges.unfinished_of_plays hplays).1
    · -- `k + 1` rounds are enough to reach the cutoff
      obtain ⟨p, hplays⟩ := h.exists_playsProgram (k + 1) program env log sink
      have hlt := Nat.lt_of_succ_le (hdiverges.unfinished_of_plays hplays).2
      have hcut := List.getElem?_eq_getElem hlt
      rw [← hcuts _ p hplays k _ hcut]
      exact yields_cutOutcome hplays hsink hfresh hk hcut
    · obtain ⟨p, hplays⟩ := h.exists_playsProgram rounds program env log sink
      have hlt' := Nat.lt_of_lt_of_le hlt (hdiverges.unfinished_of_plays hplays).2
      have hcut := List.getElem?_eq_getElem hlt'
      rw [← hcuts _ p hplays k _ hcut, outcomeWithin_free hplays]
      exact (hplays.2.1.2 _ (List.getElem_mem hlt')).2

end Host

end Treewalk
