import CoinToss.Proofs.Codec.Digits
import CoinToss.Proofs.Unlock.Reports
import CoinToss.Session.Standing

/-!
# CoinToss.Proofs.Unlock.Words

What is told of a coin agrees with how it stands.

Whether a coin is unlocked, the words for it and the percentage each go through its condition on
their own.  The words tell the cases apart by how they open:

```
unlocked                        Unlocked
a prerequisite not reached      Requires: …
a goal not reached              12/50 flips, -1/3 streak, Invalid condition, Random unlock (…
```

A goal without a condition would open with the `L` of `Locked`, but such a goal is always reached, so
that nobody is ever told of it.

* `Opening`, `Goal.opening_describe` — how the words for a goal open;
* `Coin.describe_cases` — what a coin is told by;
* `WordsAgree`, `wordsAgree` — words, percentage and standing of a coin;
* `words_agree_with_standing` — and of every answer.
-/

namespace CoinToss

open Decimal

/-! ## goals -/

/-- How the words for a goal open. -/
inductive Opening : List Char → Prop
  | digit {c : Char} (rest : List Char) (hc : c.isDigit = true) : Opening (c :: rest)
  | minus (rest : List Char) : Opening ('-' :: rest)
  | invalid (rest : List Char) : Opening ('I' :: rest)
  | random (rest : List Char) : Opening ('R' :: 'a' :: rest)

namespace Opening

theorem append {cs : List Char} (h : Opening cs) (rest : List Char) : Opening (cs ++ rest) := by
  cases h with
  | digit cs hc => exact .digit _ hc
  | minus cs => exact .minus _
  | invalid cs => exact .invalid _
  | random cs => exact .random _

theorem not_unlocked : ¬Opening "Unlocked".toList := by
  rintro ⟨_, hc⟩
  contradiction

theorem not_locked : ¬Opening "Locked".toList := by
  rintro ⟨_, hc⟩
  contradiction

theorem not_requires (rest : String) : ¬Opening ("Requires: " ++ rest).toList := by
  rw [String.toList_append]
  rintro ⟨_, hc⟩
  contradiction

theorem ne_locked {s : String} (h : Opening s.toList) : s ≠ "Locked" := by
  rintro rfl
  exact not_locked h

theorem intText (n : Int) : Opening (intText n).toList := by
  cases n with
  | ofNat k =>
      obtain ⟨c, cs, hcs, hc⟩ := natDigits_head k
      rw [Decimal.intText, String.toList_ofList, hcs]
      exact .digit cs hc
  | negSucc k =>
      rw [Decimal.intText, String.toList_ofList]
      exact .minus _

theorem outOf (current required : Int) (what : String) :
    Opening (outOf current required what).toList := by
  rw [CoinToss.outOf, String.append_assoc, String.append_assoc, String.toList_append]
  exact (intText current).append _

theorem invalidCondition : Opening "Invalid condition".toList := .invalid _

end Opening

/-- The words for a goal never open like those for a coin that is unlocked, blocked or locked. -/
theorem Goal.opening_describe {g : Goal} (h : g ≠ .none) (owner : String) (p : Progress) :
    Opening (g.describe owner p).toList := by
  cases g with
  | none => contradiction
  | totalFlips n => exact .outOf _ _ _
  | headsFlips n => exact .outOf _ _ _
  | tailsFlips n => exact .outOf _ _ _
  | streak side n => exact .outOf _ _ _
  | landOnCoin coin n =>
      rw [describe]
      split
      · exact .invalidCondition
      · exact .outOf _ _ _
  | landOnCoins l =>
      rw [describe]
      split
      · exact .invalidCondition
      · exact .outOf _ _ _
  | chance r =>
      rw [describe, String.append_assoc, String.toList_append]
      exact .random _
  | run r => exact .outOf _ _ _

theorem Goal.ne_none_of_not_reached {g : Goal} {known : Known} {owner : String} {p : Progress}
    (h : g.isReached known owner p = false) : g ≠ .none := by
  rintro rfl
  contradiction

/-! ## coins -/

theorem head?_requires (rest : String) : ("Requires: " ++ rest).toList.head? = some 'R' := by
  rw [String.toList_append]
  rfl

theorem requires_ne {s : String} (hs : s.toList.head? ≠ some 'R') (rest : String) :
    "Requires: " ++ rest ≠ s := by
  rintro rfl
  exact hs (head?_requires rest)

theorem requires_inj {s t : String} (h : "Requires: " ++ s = "Requires: " ++ t) : s = t := by
  have hlist := congrArg String.toList h
  rw [String.toList_append, String.toList_append] at hlist
  exact String.toList_inj.1 (List.append_cancel_left hlist)

namespace Coin

variable {known : Known} {p : Progress} {coin : Coin}

theorem describe_of_unlocked (h : coin.isUnlocked known p = true) :
    coin.describe known p = "Unlocked" := if_pos h

/-- A locked coin is described by the goal that blocks it: the first of those not reached. -/
theorem describe_of_blocked (hlocked : coin.isUnlocked known p = false)
    (h : coin.meetsPrerequisites known p = false) :
    ∃ before g after, coin.required = before ++ g :: after ∧
      (∀ b ∈ before, b.isReached known coin.path p = true) ∧
      g.isReached known coin.path p = false ∧
      coin.describe known p = "Requires: " ++ g.describe coin.path p := by
  rw [← blocker?_isNone, Option.isNone_eq_false_iff, Option.isSome_iff_exists] at h
  obtain ⟨g, hg⟩ := h
  obtain ⟨hreached, before, after, hrequired, hbefore⟩ := List.find?_eq_some_iff_append.1 hg
  refine ⟨before, g, after, hrequired, fun b hb => ?_, ?_, ?_⟩
  · simpa using hbefore b hb
  · simpa using hreached
  · rw [describe, if_neg (Bool.eq_false_iff.1 hlocked), hg]

/-- A locked coin that nothing blocks is described by its own goal, which is not reached. -/
theorem describe_of_unblocked (hlocked : coin.isUnlocked known p = false)
    (h : coin.meetsPrerequisites known p = true) :
    coin.meetsGoal known p = false ∧
      coin.describe known p = coin.goal.describe coin.path p := by
  constructor
  · rw [isUnlocked_eq (isSome_unlock_of_locked hlocked) (isStamped_of_locked hlocked), h,
      Bool.true_and] at hlocked
    exact hlocked
  · rw [← blocker?_isNone, Option.isNone_iff_eq_none] at h
    rw [describe, if_neg (Bool.eq_false_iff.1 hlocked), h]

end Coin

/-- What is told of a coin agrees with how it stands. -/
structure WordsAgree (known : Known) (p : Progress) (coin : Coin) : Prop where
  /-- The word for unlocked coins is told of no other. -/
  unlocked_iff : coin.describe known p = "Unlocked" ↔ coin.isUnlocked known p = true
  /-- An unlocked coin is at a hundred percent. -/
  percent : coin.isUnlocked known p = true → coin.percent known p = .ok (100 : Float)
  /-- Something is required of the locked coins with a prerequisite that is not reached. -/
  requires_iff : (∃ rest, coin.describe known p = "Requires: " ++ rest) ↔
    coin.isUnlocked known p = false ∧ coin.meetsPrerequisites known p = false
  /-- What is required is the first prerequisite that is not reached, and there is one to reach. -/
  required : coin.isUnlocked known p = false → coin.meetsPrerequisites known p = false →
    ∃ before g after, coin.required = before ++ g :: after ∧
      (∀ b ∈ before, b.isReached known coin.path p = true) ∧
      g.isReached known coin.path p = false ∧ g ≠ .none ∧
      coin.describe known p = "Requires: " ++ g.describe coin.path p
  /-- Any other locked coin is described by its own goal. -/
  goal : coin.isUnlocked known p = false → coin.meetsPrerequisites known p = true →
    coin.describe known p = coin.goal.describe coin.path p
  /-- Nobody is told of a goal that is none. -/
  not_locked : coin.describe known p ≠ "Locked" ∧ coin.describe known p ≠ "Requires: Locked"

theorem hundred_double_eq : (hundred : Float) = 100 := by decide +kernel

theorem Coin.percent_of_unlocked {known : Known} {p : Progress} {coin : Coin}
    (h : coin.isUnlocked known p = true) : coin.percent known p = .ok (100 : Float) := by
  rw [percent, if_pos h, hundred_double_eq]
  rfl

section Agree

variable (known : Known) (p : Progress) (coin : Coin)

/-- The three cases of a coin, by how it is described. -/
theorem Coin.describe_cases :
    coin.isUnlocked known p = true ∧ coin.describe known p = "Unlocked" ∨
      coin.isUnlocked known p = false ∧ coin.meetsPrerequisites known p = false ∧
        (∃ g : Goal, g ≠ .none ∧ coin.describe known p = "Requires: " ++ g.describe coin.path p) ∨
      coin.isUnlocked known p = false ∧ coin.meetsPrerequisites known p = true ∧
        Opening (coin.describe known p).toList := by
  cases hlocked : coin.isUnlocked known p with
  | true => exact .inl ⟨rfl, describe_of_unlocked hlocked⟩
  | false =>
      cases hmet : coin.meetsPrerequisites known p with
      | false =>
          obtain ⟨_, g, _, -, -, hreached, hwords⟩ := describe_of_blocked hlocked hmet
          exact .inr (.inl ⟨rfl, rfl, g, Goal.ne_none_of_not_reached hreached, hwords⟩)
      | true =>
          obtain ⟨hreached, hwords⟩ := describe_of_unblocked hlocked hmet
          rw [hwords]
          exact .inr (.inr ⟨rfl, rfl,
            Goal.opening_describe (Goal.ne_none_of_not_reached hreached) coin.path p⟩)

theorem wordsAgree : WordsAgree known p coin where
  unlocked_iff := by
    obtain ⟨h, hwords⟩ | ⟨h, -, g, -, hwords⟩ | ⟨h, -, hopening⟩ := coin.describe_cases known p
    · exact iff_of_true hwords h
    · rw [hwords, h]
      exact iff_of_false (requires_ne (by decide) _) Bool.false_ne_true
    · rw [h]
      exact iff_of_false (fun hwords => Opening.not_unlocked (hwords ▸ hopening))
        Bool.false_ne_true
  percent := Coin.percent_of_unlocked
  requires_iff := by
    obtain ⟨h, hwords⟩ | ⟨h, hmet, g, -, hwords⟩ | ⟨h, hmet, hopening⟩ :=
      coin.describe_cases known p
    · refine iff_of_false ?_ fun hlocked => ?_
      · rintro ⟨rest, hrest⟩
        exact requires_ne (by decide) rest (hrest.symm.trans hwords)
      · rw [h] at hlocked
        exact Bool.noConfusion hlocked.1
    · exact iff_of_true ⟨_, hwords⟩ ⟨h, hmet⟩
    · refine iff_of_false ?_ fun hlocked => ?_
      · rintro ⟨rest, hrest⟩
        exact Opening.not_requires rest (hrest ▸ hopening)
      · rw [hmet] at hlocked
        exact Bool.noConfusion hlocked.2
  required hlocked hmet := by
    obtain ⟨before, g, after, hrequired, hbefore, hreached, hwords⟩ :=
      Coin.describe_of_blocked hlocked hmet
    exact ⟨before, g, after, hrequired, hbefore, hreached, Goal.ne_none_of_not_reached hreached,
      hwords⟩
  goal hlocked hmet := (Coin.describe_of_unblocked hlocked hmet).2
  not_locked := by
    obtain ⟨-, hwords⟩ | ⟨-, -, g, hg, hwords⟩ | ⟨-, -, hopening⟩ := coin.describe_cases known p
    · rw [hwords]
      decide
    · rw [hwords]
      exact ⟨requires_ne (by decide) _, fun h =>
        (Goal.opening_describe hg coin.path p).ne_locked (requires_inj h)⟩
    · refine ⟨hopening.ne_locked, fun h => ?_⟩
      rw [h] at hopening
      exact Opening.not_requires "Locked" hopening

end Agree

/-! ## answers -/

section Answers

variable {c : Catalog} {g : Game} {coin : Coin} {status : Json}

/-- What an answer says of a coin. -/
theorem Game.field?_coinStatus (h : g.coinStatus c coin = .ok status) :
    ∃ percent, g.percent c coin.path = .ok percent ∧
      status.field? "unlocked" = some (.bool (g.isUnlocked c coin.path)) ∧
      status.field? "progress" = some (.string (g.describe c coin.path)) ∧
      status.field? "percent" = some (.number (roundPlaces 2 percent)) := by
  rw [coinStatus] at h
  cases hpercent : g.percent c coin.path with
  | error fault =>
      rw [hpercent] at h
      contradiction
  | ok percent =>
      rw [hpercent] at h
      rw [← Except.ok.inj h]
      exact ⟨percent, rfl, rfl, rfl, rfl⟩

/-- The path of a coin is described as unlocked only if it is. -/
theorem Game.describe_eq_unlocked_iff (path : String) :
    g.describe c path = "Unlocked" ↔ g.isUnlocked c path = true := by
  rw [describe, isUnlocked]
  cases c.get? path with
  | none => exact iff_of_false (show "Unknown coin" ≠ "Unlocked" by decide) Bool.false_ne_true
  | some coin => exact (wordsAgree c.known g.progress coin).unlocked_iff

theorem Game.percent_of_unlocked {path : String} (h : g.isUnlocked c path = true) :
    g.percent c path = .ok 100 := by
  rw [isUnlocked] at h
  rw [percent]
  cases hcoin : c.get? path with
  | none =>
      rw [hcoin] at h
      contradiction
  | some coin =>
      rw [hcoin] at h
      exact Coin.percent_of_unlocked h

theorem roundPlaces_hundred : roundPlaces 2 100 = 100 := by decide +kernel

/-- An answer calls a coin unlocked in one member exactly if it does in the other, and then the coin
is at a hundred percent. -/
theorem Game.coinStatus_agrees (h : g.coinStatus c coin = .ok status) :
    (status.field? "unlocked" = some (.bool true) ↔
        status.field? "progress" = some (.string "Unlocked")) ∧
      (status.field? "unlocked" = some (.bool true) →
        status.field? "percent" = some (.number 100)) := by
  obtain ⟨percent, hpercent, hunlocked, hprogress, htold⟩ := field?_coinStatus h
  rw [hunlocked, hprogress, htold, Option.some_inj, Option.some_inj, Option.some_inj,
    Json.bool.injEq, Json.string.injEq, describe_eq_unlocked_iff]
  refine ⟨Iff.rfl, fun hcoin => ?_⟩
  rw [percent_of_unlocked hcoin] at hpercent
  rw [← Except.ok.inj hpercent, roundPlaces_hundred]

/-- An unlocked coin is always answered for. -/
theorem Game.isOk_coinStatus (h : g.isUnlocked c coin.path = true) :
    (g.coinStatus c coin).isOk = true := by
  rw [coinStatus, percent_of_unlocked h]
  rfl

end Answers

/-- Words, percentage and standing of a coin agree, with or without a catalog to know its paths by,
and so do the members of an answer. -/
theorem words_agree_with_standing :
    (∀ (known : Known) (p : Progress) (coin : Coin), WordsAgree known p coin) ∧
      ∀ (c : Catalog) (g : Game) (coin : Coin),
        (g.isUnlocked c coin.path = true → (g.coinStatus c coin).isOk = true) ∧
          ∀ status, g.coinStatus c coin = .ok status →
            (status.field? "unlocked" = some (.bool true) ↔
                status.field? "progress" = some (.string "Unlocked")) ∧
              (status.field? "unlocked" = some (.bool true) →
                status.field? "percent" = some (.number 100)) :=
  ⟨wordsAgree, fun _ _ _ => ⟨Game.isOk_coinStatus, fun _ => Game.coinStatus_agrees⟩⟩

/-- A coin for a streak, after two prerequisites. -/
def barredCoin : Coin where
  path := "barred"
  name := ""
  category := ""
  rarity := none
  unlock := some
    { goal := .streak none 3
      prerequisites := [⟨.none, [], "", "", .common⟩, ⟨.headsFlips 2, [], "", "", .common⟩]
      description := ""
      flavorText := ""
      rarity := .common }
  effect := none

/-- A catalog in which the coin is for free. -/
def unbarred : Catalog := ⟨[{ barredCoin with unlock := none }], by decide⟩

/-- Of its prerequisites the first one is no goal, so the second one is told; for free, the coin is
at a hundred percent. -/
theorem words_agree_with_standing_barredCoin :
    (∃ before g after, barredCoin.required = before ++ g :: after ∧
      (∀ b ∈ before, b.isReached (fun _ => true) "barred" .empty = true) ∧
      g.isReached (fun _ => true) "barred" .empty = false ∧ g ≠ .none ∧
      barredCoin.describe (fun _ => true) .empty = "Requires: " ++ g.describe "barred" .empty) ∧
    ∃ status, Game.fresh.coinStatus unbarred barredCoin = .ok status ∧
      status.field? "percent" = some (.number 100) := by
  constructor
  · exact (words_agree_with_standing.1 (fun _ => true) .empty barredCoin).required rfl rfl
  · refine ⟨_, rfl, ?_⟩
    exact ((words_agree_with_standing.2 unbarred .fresh barredCoin).2 _ rfl).2 rfl

end CoinToss
