/-
The getters of the sizes against the configured values.

A static follows its variable from the first `setValue` that changes it
on. Until then it is the default, of another variable for the body of a
response.
-/
import TinyServer.Http.Limits

namespace TinyServer.Http

/-- A variable with one callback, which has been told the value, or
nothing as long as the value is the default. -/
structure Told (s : ConfigRun Nat) (default : Nat) : Prop where
  callbacks : s.var.callbacks = [0]
  observed : s.observed = some s.var.val
    ∨ s.invoked = [] ∧ s.var.val = default

/-- A new variable is told its default. -/
theorem told_new (default : Nat) : Told (.new default [0]) default :=
  ⟨rfl, .inr ⟨rfl, rfl⟩⟩

/-- A call that changes the value tells it to the callback. -/
theorem Told.setValue {s : ConfigRun Nat} {default : Nat}
    (h : Told s default) (value : Nat) : Told (s.setValue value) default := by
  unfold ConfigRun.setValue
  split
  next => exact h
  next =>
      refine ⟨h.callbacks, .inl ?_⟩
      simp only [ConfigRun.observed, h.callbacks, List.map_cons,
        List.map_nil, List.getLast?_concat, Option.map_some]

namespace HttpSizes

/-- The calls of `setValue` in `settings`, one after the other. -/
def configure (s : HttpSizes) (settings : List (SizeVar × Nat)) :
    HttpSizes :=
  settings.foldl (fun s i => s.setValue i.1 i.2) s

/-- Setting variables tells them to their copies. -/
theorem told_configure (settings : List (SizeVar × Nat)) (v : SizeVar) :
    Told ((init.configure settings).vars v) v.lookup := by
  have hall : ∀ s : HttpSizes, Told (s.vars v) v.lookup →
      Told ((s.configure settings).vars v) v.lookup := by
    induction settings with
    | nil => exact fun _ h => h
    | cons i settings ih =>
        intro s h
        refine ih (s.setValue i.1 i.2) ?_
        unfold setValue
        dsimp only
        split
        · exact h.setValue i.2
        · exact h
  exact hall init (told_new v.lookup)

/-- After any calls of `setValue` a getter returns the configured value;
only `GetHttpResponseMaxBodyLength` does so just once its variable has
been changed, and the size of a buffer before. -/
theorem getters_configured (settings : List (SizeVar × Nat)) (v : SizeVar) :
    (init.configure settings).static v
        = ((init.configure settings).vars v).var.val
      ∨ v = .responseMaxBodySize
        ∧ ((init.configure settings).vars v).invoked = []
        ∧ (init.configure settings).static v = 4096
        ∧ ((init.configure settings).vars v).var.val = 0x4000000 := by
  obtain ⟨-, htold | ⟨hnone, hval⟩⟩ := told_configure settings v
  · refine .inl ?_
    unfold static
    rw [htold]
    rfl
  · have hstatic : (init.configure settings).static v = v.initer.lookup := by
      unfold static ConfigRun.observed
      rw [hnone]
      rfl
    rw [hstatic, hval]
    cases v with
    | responseMaxBodySize => exact .inr ⟨rfl, hnone, rfl, rfl⟩
    | _ => exact .inl rfl

/-- The default limits: 64 MiB for a request, 4 KiB for a response. -/
example : init.getHttpRequestMaxBodyLength = 0x4000000
    ∧ init.getHttpResponseMaxBodyLength = 4096 :=
  ⟨rfl, rfl⟩

end HttpSizes

end TinyServer.Http
