import TagTemplate.Proofs.Execution.Interruption
import TagTemplate.Proofs.Sink

/-!
Raising the limit of loops.

Under a higher limit a loop goes on where it would have failed, and does the same up to there.  So
a run that did not reach its limit is the run under any higher limit, and one that did has written
the beginning of what a higher limit lets it write.
-/

namespace TagTemplate

def ExecError.isLoopLimit : ExecError → Bool
  | .loopLimit _ _ => true
  | _ => false

/-- The error is a limit reached, and the second context has more output, if any. -/
def ReachesLimit (e : ExecError) (context context' : Context) : Prop :=
  e.isLoopLimit = true ∧ ∃ rest, context'.sink.bytes = context.sink.bytes ++ rest

theorem invariant_reachesLimit (e : ExecError) (context : Context) :
    Context.Invariant (ReachesLimit e context) := by
  refine @Context.invariant_sink
    (fun sink => e.isLoopLimit = true ∧ ∃ rest, sink.bytes = context.sink.bytes ++ rest) ?_
  rintro text sink ⟨he, rest, hrest⟩
  obtain ⟨more, hmore⟩ := sink.exists_bytes_write text
  exact ⟨he, rest ++ more, by rw [hmore, hrest, ByteArray.append_assoc]⟩

namespace Interpreter

variable {n m : UInt64}

theorem loopBudget_le (functions : FunctionTable) (hn : n ≠ 0) (h : n ≤ m ∨ m = 0) :
    loopBudget ⟨functions, n⟩ ≤ loopBudget ⟨functions, m⟩ := by
  simp only [loopBudget, if_neg hn]
  split
  · exact n.toNat_lt_size.le
  · next hm => exact UInt64.le_iff_toNat_le.mp (h.resolve_right hm)

theorem interruption_of_limits (hn : n ≠ 0) (h : n ≤ m ∨ m = 0) :
    Interruption Eq ReachesLimit n m where
  kept := by
    rintro change context _ rfl
    rfl
  reads := fun f => f.readsAlike_of_eq fun _ _ h => h
  write := fun text => Exec.cutsShort_eq (Exec.write text)
  goesOn := invariant_reachesLimit
  iterate := by
    intro control counter body body' hbody hon
    obtain ⟨extra, hextra⟩ := Nat.exists_eq_add_of_le (loopBudget_le .standard hn h)
    rw [hextra]
    refine control.cutsShort_iterate hbody hon ?_ _
    rintro scope context _ rfl -
    refine .stopped (control.maintains_iterate (hon _ context) _ _ ⟨scope, context⟩ ?_)
    refine ⟨?_, .empty, (ByteArray.append_empty).symm⟩
    rw [loopExhausted, if_neg hn]
    rfl

/--
A run that does not reach its limit is the run under any higher limit or none.  A run that does has
written the beginning of the output under a higher limit.
-/
theorem execute_of_higher_limit (hn : n ≠ 0) (document : Document) (context : Context) :
    let low := execute ⟨.standard, n⟩ document context
    let high := execute ⟨.standard, m⟩ document context
    (n ≤ m ∨ m = 0 → (∀ e, low.1 = .error e → e.isLoopLimit = false) → high = low) ∧
    (n ≤ m → ∀ e, low.1 = .error e → e.isLoopLimit = true →
      ∃ rest, high.2.sink.bytes = low.2.sink.bytes ++ rest) := by
  intro low high
  refine ⟨fun hm hlow => ?_, fun hm e hlow he => ?_⟩
  · rcases (interruption_of_limits hn hm).execute_alike_or_stopped document (Eq.refl context) with
      ⟨hresult, hcontext⟩ | ⟨e, he, hreached, -⟩
    · exact (Prod.ext hresult hcontext).symm
    · rw [hlow e he] at hreached
      contradiction
  · rcases (interruption_of_limits hn (.inl hm)).execute_alike_or_stopped document
      (Eq.refl context) with ⟨-, hcontext⟩ | ⟨_, -, -, hrest⟩
    · exact ⟨.empty, by rw [ByteArray.append_empty, show low.2 = high.2 from hcontext]⟩
    · exact hrest

theorem execute_of_higher_limit_zero_step :
    let ends : Document := ⟨[.forLoop ⟨"i", .int 1, .int 2, none⟩ [.echo [.var "i"]]]⟩
    let endless : Document := ⟨[.forLoop ⟨"i", .int 1, .int 2, some (.int 0)⟩ ends.children]⟩
    let run := fun limit document => execute ⟨.standard, limit⟩ document .buffered
    (run 2 ends).1 = .ok () ∧ run 0 ends = run 2 ends ∧
      (run 2 endless).1 = .error (.loopLimit "i" 2) ∧
      ∃ rest, (run 3 endless).2.sink.bytes = (run 2 endless).2.sink.bytes ++ rest := by
  intro ends endless run
  have hends : (run 2 ends).1 = .ok () := by rfl
  have hendless : (run 2 endless).1 = .error (.loopLimit "i" 2) := by rfl
  have hno : ∀ e, (run 2 ends).1 = .error e → e.isLoopLimit = false := by
    rw [hends]
    simp
  obtain ⟨hsame, -⟩ := @execute_of_higher_limit 2 0 (by decide) ends .buffered
  obtain ⟨-, hmore⟩ := @execute_of_higher_limit 2 3 (by decide) endless .buffered
  exact ⟨hends, hsame (.inr rfl) hno, hendless, hmore (by decide) _ hendless rfl⟩

end Interpreter

end TagTemplate
