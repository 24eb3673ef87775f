import TokenizerHost.Proofs.Run.Calls

set_option autoImplicit false

namespace TokenizerHost

open Host

variable {σ α : Type}

/-- Every change of the heap that code makes is one of `H`, and only if `G` it changes guest state
or memory, or calls imports. -/
inductive Code.Within (H : HeapM Value → Prop) (G : Prop) : Code σ α → Prop where
  | done (a : α) : Within H G (.done a)
  | fault (e : Fault) : Within H G (.fault e)
  | observe {next : World σ → Code σ α} (h : ∀ w, Within H G (next w)) : Within H G (.observe next)
  | own {next : Code σ α} (hG : G) (state : σ) (memory : Memory) (h : Within H G next) :
      Within H G (.own state memory next)
  | heap {f : HeapM Value} {next : Value → Code σ α} (hf : H f) (h : ∀ v, Within H G (next v)) :
      Within H G (.heap f next)
  | print {next : Except Fault Nat → Code σ α} (stream : Int) (bytes : ByteArray)
      (h : ∀ r, Within H G (next r)) : Within H G (.print stream bytes next)
  | note {next : Code σ α} (n : Notice) (h : Within H G next) : Within H G (.note n next)
  | request {next : Except Fault Unit → Code σ α} (hG : G) (i : Import) (sp : Nat)
      (h : ∀ r, Within H G (next r)) : Within H G (.request i sp next)
  | call {next : Except Fault Outcome → Code σ α} (callee : Callee)
      (h : ∀ r, Within H G (next r)) : Within H G (.call callee next)
  | resume {next : Except Fault Unit → Code σ α} (h : ∀ r, Within H G (next r)) :
      Within H G (.resume next)

namespace Builtin

variable {H : HeapM Value → Prop} {G : Prop}
  {functions : String → Value → List Value → Code σ Outcome}

theorem throwing_within {v : HeapM Value} (hv : H v) :
    (Code.throwing v : Code σ Outcome).Within H G := .heap hv fun _ => .done _

theorem complete_within (herror : ∀ props, H (Heap.newObjectWith .error props)) (callback : Value)
    (args : List Value) : (complete callback args : Code σ Outcome).Within H G := by
  refine .call _ fun r => ?_
  cases r with
  | ok outcome =>
    cases outcome with
    | returned v => exact .done _
    | thrown v => exact .done _
  | error e => exact throwing_within (herror _)

theorem completeWith_within (herror : ∀ props, H (Heap.newObjectWith .error props))
    (callback : Value) {e : HeapM Value} (he : H e) :
    (completeWith callback e : Code σ Outcome).Within H G :=
  .heap he fun _ => complete_within herror _ _

theorem writing_within (herror : ∀ props, H (Heap.newObjectWith .error props)) (args : List Value)
    {next : Int → ByteArray → Code σ Outcome} (h : ∀ stream bytes, (next stream bytes).Within H G) :
    (writing args next).Within H G := by
  refine .observe fun w => ?_
  split
  · exact h _ _
  · exact throwing_within (herror _)

/-- The host's own functions make errors and functions, and do to the heap nothing else. -/
theorem code_within (herror : ∀ props, H (Heap.newObjectWith .error props))
    (hcallback : ∀ id, H (Heap.newCallback id))
    {f : Native} {this : Value} {args : List Value}
    (hfunctions : ∀ name, f = .embedded name → (functions name this args).Within H G) :
    (code functions f this args).Within H G := by
  unfold code
  cases f with
  | writeSync =>
    refine writing_within herror args fun stream bytes => .print _ _ fun r => ?_
    cases r with
    | ok n => exact .done _
    | error e => exact throwing_within (herror _)
  | write =>
    refine writing_within herror args fun stream bytes => ?_
    dsimp only
    split
    · refine .print _ _ fun r => ?_
      cases r with
      | ok n => exact complete_within herror _ _
      | error e => exact completeWith_within herror _ (herror _)
    · exact completeWith_within herror _ (herror _)
  | fsync => exact complete_within herror _ _
  | unsupportedFile => exact completeWith_within herror _ (herror _)
  | unsupportedProcess => exact throwing_within (herror _)
  | processId | getTime | getTimezoneOffset => exact .done _
  | resolvePath =>
    refine .observe fun w => ?_
    split
    · exact .done _
    · exact .fault _
  | wrapCallback =>
    dsimp only
    split
    · exact .heap (hcallback _) fun _ => .done _
    · exact throwing_within (herror _)
  | embedded name => exact hfunctions name rfl

end Builtin

/-- Code out of whose reach guest memory and imports are. -/
theorem Code.Within.keeps {R : World σ → World σ → Prop} [Mild R] {H : HeapM Value → Prop}
    {c : Calls σ} {code : Code σ α} (hH : ∀ f, H f → Keeps R (onHeap f : Host σ Value))
    (hc : c.Keeping R) (h : code.Within H False) : Keeps R (execute c code) := by
  induction h with
  | done a => exact keeps_pure a
  | fault e => exact keeps_throw e
  | observe _ ih => exact fun w => ih w w
  | own hG _ _ _ _ => exact hG.elim
  | heap hf _ ih => exact (hH _ hf).bind ih
  | print stream bytes _ ih => exact (keeps_print stream bytes).bind ih
  | note n _ ih => exact (keeps_notify n).bind fun _ => ih
  | request hG _ _ _ _ => exact hG.elim
  | call callee _ ih => exact (callee.keeps_run hc).attempt.bind ih
  | resume _ ih => exact hc.resume.attempt.bind ih

section Functions

variable {R : World σ → World σ → Prop} [Mild R]

/-- The host's own functions are carried out within a relation if those of the embedding program
are. -/
theorem Builtin.keeps_code {c : Calls σ} {functions : String → Value → List Value → Code σ Outcome}
    (hc : c.Keeping R)
    (hfunctions : ∀ name this args, Keeps R (execute c (functions name this args)))
    (f : Native) (this : Value) (args : List Value) :
    Keeps R (execute c (code functions f this args)) := by
  have hown : (∀ name, f ≠ .embedded name) → Keeps R (execute c (code functions f this args)) :=
    fun hf => (code_within (fun props => Heap.keepsObjects_newObjectWith .error props)
      (fun id => Heap.keepsObjects_newFunction "" (.guestCallback id))
      (fun name h => absurd h (hf name))).keeps (fun _ => keeps_making) hc
  cases f with
  | embedded name => exact hfunctions name this args
  | _ => exact hown nofun

/-- Calls nest within a relation if the functions of the embedding program and the frames that are
entered inside others are carried out within it. -/
theorem Program.keeping_callsWithin_of {p : Program σ}
    (hfunctions : ∀ c : Calls σ, c.Keeping R →
      ∀ name this args, Keeps R (execute c (p.functions name this args)))
    (hframe : ∀ depth (cause : Cause), cause.IsInner → (p.callsWithin depth).Keeping R →
      Keeps R (frame (p.callsWithin depth) cause p.resume)) (depth : Nat) :
    (p.callsWithin depth).Keeping R := by
  induction depth with
  | zero => exact ⟨fun _ _ _ => keeps_throw _, fun _ _ => keeps_throw _, keeps_throw _⟩
  | succ depth ih =>
    have hnative := Builtin.keeps_code ih (hfunctions _ ih)
    exact ⟨p.keeps_callWith_of hnative fun id => hframe depth (.callback id) trivial ih,
      p.keeps_constructWith_of hnative, hframe depth .embedded trivial ih⟩

end Functions

end TokenizerHost
