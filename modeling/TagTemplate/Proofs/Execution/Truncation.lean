import TagTemplate.Proofs.Execution.Interruption
import TagTemplate.Proofs.Sink

/-!
Runs into sinks of limited capacity.

Such a run does what the run into an unbounded sink does, up to the first write that does not fit.
It fails there, with the sink full, so what it has stored is the beginning of the whole output.
-/

namespace TagTemplate

/-- The contexts differ in the capacity of the sink only, and the bytes fit into the first one. -/
def Fits (capacity : Nat) (context context' : Context) : Prop :=
  ∃ bytes : ByteArray, bytes.size ≤ capacity ∧ context.sink = ⟨some capacity, bytes⟩ ∧
    context' = { context with sink := ⟨none, bytes⟩ }

/-- Writing has failed in the first context, which holds the beginning of the second one's bytes. -/
def Truncates (capacity : Nat) (e : ExecError) (context context' : Context) : Prop :=
  e = .output .sinkFull ∧ capacity < context'.sink.bytes.size ∧
    context.sink.bytes = context'.sink.bytes.extract 0 capacity

variable {capacity : Nat}

theorem kept_fits : Context.Kept (Fits capacity) := by
  rintro change context _ ⟨bytes, hsize, hsink, rfl⟩
  cases change <;> exact ⟨bytes, hsize, hsink, rfl⟩

theorem StandardFunction.readsAlike_fits (f : StandardFunction) : f.ReadsAlike (Fits capacity) := by
  cases f with
  | paramGet | persistentGet | temporaryGet =>
      rintro name context _ ⟨bytes, -, -, rfl⟩
      rfl
  | _ => trivial

theorem invariant_truncates (e : ExecError) (context : Context) :
    Context.Invariant (Truncates capacity e context) := by
  refine @Context.invariant_sink (fun sink => e = .output .sinkFull ∧ capacity < sink.bytes.size ∧
    context.sink.bytes = sink.bytes.extract 0 capacity) ?_
  rintro text sink ⟨he, hsize, hbytes⟩
  obtain ⟨more, hmore⟩ := sink.exists_bytes_write text
  rw [hmore, extract_append_of_lt_size hsize, ByteArray.size_append]
  exact ⟨he, by omega, hbytes⟩

theorem Exec.cutsShort_write_of_fits (text : String) :
    CutsShort (Fits capacity) (Truncates capacity) (write text) (write text) := by
  rintro scope ⟨sink, mimeType, parameters, persistent, temporary⟩ _ ⟨bytes, hsize, rfl, rfl⟩
  simp only [write, Context.write, Sink.write]
  by_cases hroom : text.toUTF8.size ≤ capacity - bytes.size
  · have hfits : (bytes ++ text.toUTF8).size ≤ capacity := by
      rw [ByteArray.size_append]
      omega
    rw [if_pos hroom]
    exact .ok ⟨_, hfits, rfl, rfl⟩
  · have hfull : capacity < (bytes ++ text.toUTF8).size := by
      rw [ByteArray.size_append]
      omega
    rw [if_neg hroom]
    exact .stopped ⟨rfl, hfull, (extract_append_of_size_le hsize).symm⟩

namespace Interpreter

theorem interruption_of_capacity (capacity : Nat) (limit : UInt64) :
    Interruption (Fits capacity) (Truncates capacity) limit limit where
  kept := kept_fits
  reads := StandardFunction.readsAlike_fits
  write := Exec.cutsShort_write_of_fits
  goesOn := invariant_truncates
  iterate := by
    intro control counter body body' hbody hon
    refine @LoopControl.cutsShort_iterate _ _ control _ _ _ _ hbody hon 0 ?_ _
    intro scope context context' hfits hover
    rw [LoopControl.iterate_zero_of_on _ _ hover]
    exact .error hfits

/--
A run into a sink that can hold the whole output ends as the run into an unbounded one.  If the sink
cannot, the run fails, and the sink holds as much of the output as it can.
-/
theorem execute_bounded (capacity : Nat) (limit : UInt64) (document : Document)
    (context : Context) :
    let whole := execute ⟨.standard, limit⟩ document { context with sink := .unbounded }
    let cut := execute ⟨.standard, limit⟩ document { context with sink := .bounded capacity }
    (whole.2.sink.bytes.size ≤ capacity →
      cut = (whole.1, { whole.2 with sink := ⟨some capacity, whole.2.sink.bytes⟩ })) ∧
    (capacity < whole.2.sink.bytes.size →
      cut.1 = .error (.output .sinkFull) ∧
        cut.2.sink.bytes = whole.2.sink.bytes.extract 0 capacity) := by
  intro whole cut
  have hfits : Fits capacity { context with sink := .bounded capacity }
      { context with sink := .unbounded } := ⟨.empty, Nat.zero_le capacity, rfl, rfl⟩
  rcases (interruption_of_capacity capacity limit).execute_alike_or_stopped document hfits with
    ⟨hresult, bytes, hsize, hsink, hwhole⟩ | ⟨e, he, rfl, hsize, hbytes⟩
  · have hbytes : whole.2.sink.bytes = bytes := congrArg (fun after => after.sink.bytes) hwhole
    have hcut : cut.2 = { whole.2 with sink := ⟨some capacity, bytes⟩ } := by
      rw [show whole.2 = { cut.2 with sink := ⟨none, bytes⟩ } from hwhole, ← hsink]
    rw [hbytes]
    exact ⟨fun _ => Prod.ext hresult hcut, fun hlt => absurd hlt hsize.not_gt⟩
  · exact ⟨fun hle => absurd hle hsize.not_ge, fun _ => ⟨he, hbytes⟩⟩

theorem execute_bounded_inside_character :
    let body : List Node := [.text "é", .echo [.var "i"]]
    let document : Document := ⟨[.forLoop ⟨"i", .int 1, .int 3, none⟩ body]⟩
    let whole := execute ⟨.standard, 5⟩ document .buffered
    let cut := fun capacity => execute ⟨.standard, 5⟩ document (.ofSink (.bounded capacity))
    whole.2.sink.bytes = "é1é2é3".toUTF8 ∧
      cut 9 = (whole.1, { whole.2 with sink := ⟨some 9, whole.2.sink.bytes⟩ }) ∧
      (cut 4).1 = .error (.output .sinkFull) ∧
      (cut 4).2.sink.bytes = whole.2.sink.bytes.extract 0 4 := by
  intro body document whole cut
  have hwhole : whole.2.sink.bytes = "é1é2é3".toUTF8 := by decide +kernel
  have hsize : whole.2.sink.bytes.size = 9 := by
    rw [hwhole]
    rfl
  have hmore : 4 < whole.2.sink.bytes.size := by omega
  obtain ⟨hfits, -⟩ := execute_bounded 9 5 document .buffered
  obtain ⟨-, hfull⟩ := execute_bounded 4 5 document .buffered
  exact ⟨hwhole, hfits hsize.le, hfull hmore⟩

end Interpreter

end TagTemplate
