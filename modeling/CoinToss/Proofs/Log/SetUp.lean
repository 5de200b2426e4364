import CoinToss.Log.Loggers

/-!
# CoinToss.Proofs.Log.SetUp

What becomes of the set-up that a program asks for.

The parts of a program ask for their loggers as soon as they are there, and the first to do so has
the program's own logger set up as usual.  Whoever sets it up after that only changes its level, so
what the program asks for when it starts comes too late for its sinks:

```
new  --part-->  usual  --part-->  usual  --start-->  usual sinks, level asked for
new  --start-->  sinks and level asked for
```

* `logger_make`, `logger_log` — making loggers and logging leave what loggers are;
* `Prepared`, `Prepared.part`, `Prepared.parts` — the usual set-up, kept by every part;
* `start_of_ok` — setting up at the start;
* `start_after_parts` — when the program gets what it asks for.
-/

namespace CoinToss.Log

namespace Loggers

variable {ls : Loggers} {o : Order} {level : Level}

/-! ## what leaves loggers as they are -/

/-- Making a logger makes it as it was thought to be. -/
@[simp] theorem logger_make (ls : Loggers) (name other : String) :
    (ls.make name).logger other = ls.logger other := by
  unfold make
  split
  · rfl
  · unfold logger
    rw [Tally.get?_insert]
    split
    · next h => rw [h, Option.getD_some]
    · rfl

@[simp] theorem table_deliver (ls : Loggers) (h : Host) (e : Entry) (sink : Sink) :
    (ls.deliver h e sink).table = ls.table := by
  cases sink <;> rfl

/-- Delivering an entry fills sinks, and no more. -/
theorem table_foldl_deliver (ls : Loggers) (h : Host) (e : Entry) (sinks : List Sink) :
    (sinks.foldl (fun ls sink => ls.deliver h e sink) ls).table = ls.table := by
  induction sinks generalizing ls with
  | nil => rfl
  | cons sink sinks ih => rw [List.foldl_cons, ih, table_deliver]

/-- Logging leaves loggers as they are. -/
@[simp] theorem logger_log (ls : Loggers) (h : Host) (e : Entry) (name : String) :
    (ls.log h e).logger name = ls.logger name := by
  unfold log
  dsimp only
  split
  · rw [logger, table_foldl_deliver]
    exact ls.logger_make e.record.logger name
  · exact ls.logger_make e.record.logger name

/-! ## parts -/

/-- The loggers once parts of the program have asked for theirs. -/
def parts (ls : Loggers) (names : List String) : Loggers :=
  names.foldl (fun ls name => (ls.part name).2) ls

/-- The program's own logger has been set up as usual. -/
structure Prepared (ls : Loggers) : Prop where
  ready : ls.ready = true
  logger : ls.logger root = ⟨info, Order.sinks {}, false⟩

theorem ready_make (ls : Loggers) (name : String) : (ls.make name).ready = ls.ready := by
  unfold make
  split <;> rfl

/-- The first part that asks has the program's own logger set up. -/
theorem prepared_part_of_new (name : String) : (part {} name).2.Prepared where
  ready := ready_make _ _
  logger := by
    show ((prepared {}).make _).logger root = _
    rw [logger_make]
    rfl

/-- The parts that come later find it set up. -/
theorem Prepared.part (h : ls.Prepared) (name : String) : (ls.part name).2.Prepared := by
  have hsame : ls.prepared = ls := if_pos h.ready
  refine ⟨?_, ?_⟩
  · show (ls.prepared.make _).ready = true
    rw [ready_make, hsame, h.ready]
  · show (ls.prepared.make _).logger root = _
    rw [logger_make, hsame, h.logger]

theorem Prepared.parts (h : ls.Prepared) (names : List String) : (ls.parts names).Prepared := by
  induction names generalizing ls with
  | nil => exact h
  | cons name names ih => exact ih (h.part name)

/-- Once any part has asked, the program's own logger is set up as usual. -/
theorem prepared_parts {names : List String} (h : names ≠ []) :
    (Loggers.parts {} names).Prepared := by
  cases names with
  | nil => contradiction
  | cons name names => exact (prepared_part_of_new name).parts names

/-! ## starting -/

theorem setUp_of_ok (ls : Loggers) (hlevel : levelNamed o.level = .ok level) (name : String) :
    ∃ t, ls.setUp name o = .ok t ∧
      t.table = ls.table.insert name (o.apply level (ls.logger name)) := by
  rw [setUp, hlevel]
  exact ⟨_, rfl, rfl⟩

/-- A program that starts sets its own logger up, and what is logged of that leaves it so. -/
theorem start_of_ok (ls : Loggers) (h : Host) (hlevel : levelNamed o.level = .ok level)
    (now : Int) : ∃ t, ls.start h o now = .ok t ∧ t.logger root = o.apply level (ls.logger root) := by
  obtain ⟨u, hu, htable⟩ := ls.setUp_of_ok hlevel root
  rw [start, hu]
  refine ⟨_, rfl, ?_⟩
  rw [logger_log]
  show (u.table.get? root).getD _ = _
  rw [htable, Tally.get?_insert_self, Option.getD_some]

/-- The sinks of an order are the usual ones if it asks for coloured lines, or for a formatter that
is none, and for no file. -/
theorem Order.sinks_eq_usual_iff (o : Order) :
    Order.sinks {} = o.sinks ↔ Formatter.ofName o.formatter = .colored ∧ o.toFile = false := by
  have husual : Order.sinks {} = [.console .colored] := by decide
  rw [husual, Order.sinks]
  cases o.toFile with
  | false => simp [eq_comm]
  | true => simp

/-- A program that starts gets the level it asks for, whatever parts of it have asked for loggers
before.  It gets the sinks it asks for only if none has: otherwise they are the usual ones, a
console with coloured lines and no file, whatever it asks for. -/
theorem start_after_parts (h : Host) (names : List String) (now : Int)
    (hlevel : levelNamed o.level = .ok level) :
    ∃ t, (parts {} names).start h o now = .ok t ∧
      t.logger root = ⟨level, if names = [] then o.sinks else [.console .colored], false⟩ ∧
      ((t.logger root).sinks = o.sinks ↔
        names = [] ∨ Formatter.ofName o.formatter = .colored ∧ o.toFile = false) := by
  have husual : Order.sinks {} = [.console .colored] := by decide
  obtain ⟨t, ht, hlogger⟩ := (parts {} names).start_of_ok h hlevel now
  refine ⟨t, ht, ?_⟩
  by_cases hnames : names = []
  · rw [hlogger, hnames]
    exact ⟨rfl, iff_of_true rfl (.inl rfl)⟩
  · have hprepared := (prepared_parts hnames).logger
    have hsinks : ((parts {} names).logger root).sinks ≠ [] := by
      rw [hprepared, husual]
      exact List.cons_ne_nil _ _
    rw [hlogger, Order.apply_of_sinks hsinks, hprepared, if_neg hnames, ← husual]
    refine ⟨rfl, ?_⟩
    rw [Order.sinks_eq_usual_iff]
    exact (or_iff_right hnames).symm

/-- A program that asks for a file and for lines of JSON, once one of its parts has asked for a
logger, gets neither. -/
theorem start_after_parts_session :
    levelNamed "DEBUG" = .ok debug ∧
      ∃ t, (parts {} ["session"]).start ⟨.utc, fun _ => 900⟩
          { level := "DEBUG", toFile := true, formatter := "json" } 0 = .ok t ∧
        t.logger root = ⟨debug, [.console .colored], false⟩ := by
  have hlevel : levelNamed "DEBUG" = .ok debug := rfl
  obtain ⟨t, ht, hlogger, -⟩ := start_after_parts ⟨.utc, fun _ => 900⟩
    (o := { level := "DEBUG", toFile := true, formatter := "json" }) ["session"] 0 hlevel
  exact ⟨hlevel, t, ht, hlogger⟩

end Loggers

end CoinToss.Log
