import BinFleet.Archive.Rehearsal
import BinFleet.Proofs.Fault

namespace BinFleet.Archive

/-- A function that can run in a transaction. -/
inductive Task (σ α : Type) where
  | finish (ending : Ending (Except Fault α))
  /-- Does something, knowing what the surroundings carry, and goes on by what came of it. -/
  | act (work : Carried → σ → σ) (next : σ → Task σ α)
  /-- Has another function run in a transaction and goes on by how that ended. -/
  | call (readOnly : Bool) (inner : Task σ α) (next : Ending (Except Fault α) → Task σ α)

/-- What can be seen of transactions and of the functions that run in them. -/
inductive Note where
  | begun (readOnly : Bool)
  | called (readOnly : Bool)
  | entered (carried : Carried)
  | acted (carried : Carried)
  | back
  | committed
  | rolledBack
  deriving DecidableEq, Repr

/-- The notes of a function in an open transaction: whatever it does, it does there, and each function that
it calls starts there, does the same, and comes back. -/
inductive Joined : List Note → Prop where
  | done : Joined []
  | acted {rest : List Note} (h : Joined rest) : Joined (.acted .transaction :: rest)
  | called (readOnly : Bool) {inner rest : List Note} (h : Joined inner) (h' : Joined rest) :
    Joined (.called readOnly :: .entered .transaction :: (inner ++ .back :: rest))

/-- Writes down what is seen where something is carried. -/
def noting {σ : Type} (seen : Carried → Note) (carried : Carried) (s : σ × List Note) : σ × List Note :=
  (s.1, s.2 ++ [seen carried])

/-- How a transaction is ended after a function ended so. -/
def conclusion {α : Type} : Ending (Except Fault α) → Note
  | .returned (.ok _) => .committed
  | .returned (.error _) => .rolledBack
  | .crashed _ => .rolledBack

/-- The transactions, written down. -/
def Transactions.watched {σ : Type} (t : Transactions σ) : Transactions (σ × List Note) where
  start readOnly s := (((t.start readOnly s.1).1, s.2 ++ [.begun readOnly]), (t.start readOnly s.1).2)
  commit s := (((t.commit s.1).1, s.2 ++ [.committed]), (t.commit s.1).2)
  rollback s := (((t.rollback s.1).1, s.2 ++ [.rolledBack]), (t.rollback s.1).2)

namespace Task

section

variable {σ α : Type}

/-- The work of a function whose calls ask for transactions. -/
def run (t : Transactions σ) : Task σ α → Work σ α
  | finish ending, _, s => (s, ending)
  | act work next, carried, s => (next (work carried s)).run t carried (work carried s)
  | call readOnly inner next, carried, s =>
    let (s, ending) := within t readOnly (inner.run t) carried s
    (next ending).run t carried s

/-- What a function does inside a transaction if its calls are plain ones. -/
def joined : Task σ α → σ → σ × Ending (Except Fault α)
  | finish ending, s => (s, ending)
  | act work next, s => (next (work .transaction s)).joined (work .transaction s)
  | call _ inner next, s =>
    let (s, ending) := inner.joined s
    (next ending).joined s

/-- A function as it starts, which writes down what its surroundings carry. -/
def entering (task : Task (σ × List Note) α) : Task (σ × List Note) α := act (noting .entered) fun _ => task

/-- A function with what it does written down. -/
def watched : Task σ α → Task (σ × List Note) α
  | finish ending => finish ending
  | act work next =>
    act (fun carried s => noting .acted carried (work carried s.1, s.2)) fun s => (next s.1).watched
  | call readOnly inner next =>
    act (noting fun _ => .called readOnly) fun _ =>
      call readOnly inner.watched.entering fun ending =>
        act (noting fun _ => .back) fun _ => (next ending).watched

theorem run_transaction (t : Transactions σ) (task : Task σ α) (s : σ) :
    task.run t .transaction s = task.joined s := by
  induction task generalizing s with
  | finish ending => rfl
  | act work next ih => exact ih _ _
  | call readOnly inner next ihInner ihNext => simp only [run, within, joined, ihInner, ihNext]

/-- Around a whole tree of calls there is one start and one end. -/
theorem within_run (t : Transactions σ) (readOnly : Bool) (task : Task σ α) (s : σ)
    (h : (t.start readOnly s).2 = none) :
    within t readOnly (task.run t) .nothing s = settle t (task.joined (t.start readOnly s).1) := by
  rcases hstart : t.start readOnly s with ⟨s', _ | why⟩ <;> rw [hstart] at h
  · simp only [within, hstart, run_transaction]
  · cases h

theorem joined_watched (task : Task σ α) (s : σ) (notes : List Note) :
    ∃ added, Joined added ∧
      task.watched.joined (s, notes) = (((task.joined s).1, notes ++ added), (task.joined s).2) := by
  -- The notes are general: an inner function goes on with those of its caller, and the caller with its.
  induction task generalizing s notes with
  | finish ending => exact ⟨[], .done, by rw [List.append_nil]; rfl⟩
  | act work next ih =>
    obtain ⟨added, hadded, he⟩ := ih (work .transaction s) (work .transaction s) (notes ++ [.acted .transaction])
    refine ⟨.acted .transaction :: added, .acted hadded, ?_⟩
    rw [List.append_cons]
    exact he
  | call readOnly inner next ihInner ihNext =>
    obtain ⟨first, hfirst, heInner⟩ := ihInner s (notes ++ [.called readOnly] ++ [.entered .transaction])
    obtain ⟨rest, hrest, heNext⟩ := ihNext (inner.joined s).2 (inner.joined s).1
      (notes ++ [.called readOnly] ++ [.entered .transaction] ++ first ++ [.back])
    refine ⟨_, .called readOnly hfirst hrest, ?_⟩
    simp only [watched, entering, joined, noting, heInner, heNext]
    simp only [List.append_assoc, List.cons_append, List.nil_append]

end

end Task

section

variable {σ α : Type} (t : Transactions σ)

theorem settle_watched (s : σ) (notes : List Note) (ending : Ending (Except Fault α)) :
    settle t.watched ((s, notes), ending) =
      (((settle t (s, ending)).1, notes ++ [conclusion ending]), (settle t (s, ending)).2) := by
  rcases ending with (failure | v) | text
  · rcases hr : t.rollback s with ⟨s', _ | why⟩ <;> simp only [settle, Transactions.watched, conclusion, hr]
  · rcases hc : t.commit s with ⟨s', _ | why⟩ <;> simp only [settle, Transactions.watched, conclusion, hc]
  · rfl

theorem settle_crashed_iff (s : σ) (ending : Ending (Except Fault α)) (text : String) :
    (settle t (s, ending)).2 = .crashed text ↔ ending = .crashed text := by
  rcases ending with (failure | v) | text'
  · rcases hr : t.rollback s with ⟨s', _ | why⟩ <;> simp [settle, hr]
  · rcases hc : t.commit s with ⟨s', _ | why⟩ <;> simp [settle, hc]
  · rfl

theorem settle_ok_iff (s : σ) (ending : Ending (Except Fault α)) (v : α) :
    (settle t (s, ending)).2 = .returned (.ok v) ↔ ending = .returned (.ok v) ∧ (t.commit s).2 = none := by
  rcases ending with (failure | w) | text
  · rcases hr : t.rollback s with ⟨s', _ | why⟩ <;> simp [settle, hr]
  · rcases hc : t.commit s with ⟨s', _ | why⟩ <;> simp [settle, hc]
  · simp [settle]

theorem settle_error_wraps (s : σ) (failure : Fault) :
    ∃ f, (settle (α := α) t (s, .returned (.error failure))).2 = .returned (.error f) ∧ f.Wraps failure := by
  rcases hr : t.rollback s with ⟨s', _ | why⟩ <;> simp only [settle, hr]
  · exact ⟨failure, rfl, .refl⟩
  · exact ⟨rollbackFault why failure, rfl, .wrapped .refl⟩

/-- Whatever functions call each other, one transaction is begun, as the outermost call asks for it, and
all of them run in it. At the end it is committed if the outermost function succeeded and rolled back
otherwise, and its failure is told even when that fails. -/
theorem nested_calls_settle_once (readOnly : Bool) (task : Task σ α) (s : σ)
    (h : (t.start readOnly s).2 = none) :
    let function := task.run t .transaction (t.start readOnly s).1
    let call := within t readOnly (task.run t) .nothing s
    (∃ inner, Joined inner ∧
      within t.watched readOnly (task.watched.entering.run t.watched) .nothing (s, []) =
        ((call.1, .begun readOnly :: .entered .transaction :: (inner ++ [conclusion function.2])), call.2)) ∧
    (∀ text, call.2 = .crashed text ↔ function.2 = .crashed text) ∧
    (∀ v, call.2 = .returned (.ok v) ↔ function.2 = .returned (.ok v) ∧ (t.commit function.1).2 = none) ∧
    (∀ failure, function.2 = .returned (.error failure) →
      ∃ f, call.2 = .returned (.error f) ∧ f.Wraps failure) := by
  intro function call
  have hcall : call = settle t function := by
    rw [show function = task.joined (t.start readOnly s).1 from Task.run_transaction t task _]
    exact Task.within_run t readOnly task s h
  refine ⟨?_, fun text => ?_, fun v => ?_, fun failure hfailure => ?_⟩
  · obtain ⟨inner, hinner, he⟩ := task.joined_watched (t.start readOnly s).1 [.begun readOnly, .entered .transaction]
    rw [← Task.run_transaction t] at he
    refine ⟨inner, hinner, ?_⟩
    rw [Task.within_run t.watched readOnly _ (s, []) h, hcall]
    change settle t.watched (task.watched.joined _) = _
    exact (congrArg _ he).trans (settle_watched t _ _ _)
  · rw [hcall]
    exact settle_crashed_iff t function.1 function.2 text
  · rw [hcall]
    exact settle_ok_iff t function.1 function.2 v
  · rw [hcall, show function = (function.1, .returned (.error failure)) from Prod.ext rfl hfailure]
    exact settle_error_wraps t function.1 failure

end

/-- Swallows the failure of one call, makes another one that succeeds, and fails. -/
def stubbornTask : Task Rehearsal Unit :=
  .call true (.finish (.returned (.error (.other "inner")))) fun _ =>
    .act (fun _ r => r.ask .closeRows) fun _ =>
      .call false (.finish (.returned (.ok ()))) fun _ => .finish (.returned (.error (.other "outer")))

theorem nested_calls_settle_once_stubborn :
    let t := Rehearsal.database.toTransactions
    let r : Rehearsal := { script := { rollback := some (.other "broken pipe") } }
    (t.start true r).2 = none ∧
    (∃ inner, Joined inner ∧
      (within t.watched true (stubbornTask.watched.entering.run t.watched) .nothing (r, [])).1.2 =
        .begun true :: .entered .transaction :: (inner ++ [.rolledBack])) ∧
    ∃ f, (within t true (stubbornTask.run t) .nothing r).2 = .returned (.error f) ∧ f.Wraps (.other "outer") := by
  intro t r
  obtain ⟨⟨inner, hinner, he⟩, -, -, hfailed⟩ := nested_calls_settle_once t true stubbornTask r rfl
  exact ⟨rfl, ⟨inner, hinner, congrArg (·.1.2) he⟩, hfailed _ rfl⟩

end BinFleet.Archive
