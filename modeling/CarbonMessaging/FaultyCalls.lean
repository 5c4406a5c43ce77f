import CarbonMessaging.JavaLang

/-! Programs whose calls to outside services may raise. The outcomes to come are a list: `some e`
lets the next call raise `e` before it has any effect, `none` lets it go through, and past the
end of the list every call goes through. A program that raises keeps the effects it already
had. Quantifying over the list covers a failure at any step. -/

namespace CarbonMessaging.FaultyCalls

structure Site (ε σ : Type) where
  state : σ
  outcomes : List (Option ε)

abbrev Prog (ε σ α : Type) := EStateM ε (Site ε σ) α

variable {ε σ α β : Type}

/-- One call to an outside service, with the service's own effect `op`. -/
def call (op : σ → Except ε α × σ) : Prog ε σ α := fun site =>
  match site.outcomes with
  | some e :: rest => .error e ⟨site.state, rest⟩
  | outcomes =>
    match op site.state with
    | (.ok a, s) => .ok a ⟨s, outcomes.tail⟩
    | (.error e, s) => .error e ⟨s, outcomes.tail⟩

def query (f : σ → α) : Prog ε σ α := call fun s => (.ok (f s), s)

def command (f : σ → σ) : Prog ε σ Unit := call fun s => (.ok (), f s)

def peek (f : σ → α) : Prog ε σ α := fun site => .ok (f site.state) site

def poke (f : σ → σ) : Prog ε σ Unit := fun site => .ok () ⟨f site.state, site.outcomes⟩

def raise (e : ε) : Prog ε σ α := fun site => .error e site

def orRaise : Except ε α → Prog ε σ α
  | .ok a => pure a
  | .error e => raise e

/-- `catch` clauses that only throw another exception. -/
def translate (f : ε → ε) (x : Prog ε σ α) : Prog ε σ α := fun site =>
  match x site with
  | .ok a t => .ok a t
  | .error e t => .error (f e) t

/-- `catch` clauses that go on with another program. -/
def handling (x : Prog ε σ α) (f : ε → Prog ε σ α) : Prog ε σ α := fun site =>
  match x site with
  | .ok a t => .ok a t
  | .error e t => f e t

def shortOr (x y : Prog ε σ Bool) : Prog ε σ Bool := do
  if ← x then pure true else y

def shortAnd (x y : Prog ε σ Bool) : Prog ε σ Bool := do
  if ← x then y else pure false

def forEach (f : α → Prog ε σ Unit) : List α → Prog ε σ Unit
  | [] => pure ()
  | a :: l => do
    f a
    forEach f l

def collect (f : α → Prog ε σ β) : List α → Prog ε σ (List β)
  | [] => pure []
  | a :: l => do
    let b ← f a
    let rest ← collect f l
    pure (b :: rest)

def finalAt (x : Prog ε σ α) (site : Site ε σ) : σ :=
  match x site with
  | .ok _ t => t.state
  | .error _ t => t.state

/-- The state after a program, however it ended, when every call goes through. -/
def final (x : Prog ε σ α) (s : σ) : σ :=
  match x ⟨s, []⟩ with
  | .ok _ t => t.state
  | .error _ t => t.state

@[simp] theorem pure_apply (a : α) (site : Site ε σ) :
    (pure a : Prog ε σ α) site = .ok a site := rfl

@[simp] theorem raise_apply (e : ε) (site : Site ε σ) :
    (raise e : Prog ε σ α) site = .error e site := rfl

@[simp] theorem peek_apply (f : σ → α) (site : Site ε σ) :
    (peek f : Prog ε σ α) site = .ok (f site.state) site := rfl

@[simp] theorem poke_apply (f : σ → σ) (site : Site ε σ) :
    (poke f : Prog ε σ Unit) site = .ok () ⟨f site.state, site.outcomes⟩ := rfl

@[simp] theorem bind_apply (x : Prog ε σ α) (f : α → Prog ε σ β) (site : Site ε σ) :
    (x >>= f) site = match x site with
      | .ok a t => f a t
      | .error e t => .error e t := by
  cases h : x site <;> simp only [bind, EStateM.bind, h]

@[simp] theorem map_apply (f : α → β) (x : Prog ε σ α) (site : Site ε σ) :
    (f <$> x) site = match x site with
      | .ok a t => .ok (f a) t
      | .error e t => .error e t := by
  cases h : x site <;> simp only [Functor.map, EStateM.map, h]

@[simp] theorem translate_apply (f : ε → ε) (x : Prog ε σ α) (site : Site ε σ) :
    translate f x site = match x site with
      | .ok a t => .ok a t
      | .error e t => .error (f e) t := rfl

@[simp] theorem handling_apply (x : Prog ε σ α) (f : ε → Prog ε σ α) (site : Site ε σ) :
    handling x f site = match x site with
      | .ok a t => .ok a t
      | .error e t => f e t := rfl

@[simp] theorem orRaise_ok (a : α) : (orRaise (.ok a) : Prog ε σ α) = pure a := rfl

@[simp] theorem orRaise_error (e : ε) : (orRaise (.error e) : Prog ε σ α) = raise e := rfl

@[simp] theorem call_quiet (op : σ → Except ε α × σ) (s : σ) :
    call op ⟨s, []⟩ = match op s with
      | (.ok a, t) => .ok a ⟨t, []⟩
      | (.error e, t) => .error e ⟨t, []⟩ := rfl

@[simp] theorem query_quiet (f : σ → α) (s : σ) :
    (query f : Prog ε σ α) ⟨s, []⟩ = .ok (f s) ⟨s, []⟩ := rfl

@[simp] theorem command_quiet (f : σ → σ) (s : σ) :
    (command f : Prog ε σ Unit) ⟨s, []⟩ = .ok () ⟨f s, []⟩ := rfl

@[simp] theorem call_through (op : σ → Except ε α × σ) (s : σ) (rest : List (Option ε)) :
    call op ⟨s, none :: rest⟩ = match op s with
      | (.ok a, t) => .ok a ⟨t, rest⟩
      | (.error e, t) => .error e ⟨t, rest⟩ := rfl

@[simp] theorem query_through (f : σ → α) (s : σ) (rest : List (Option ε)) :
    (query f : Prog ε σ α) ⟨s, none :: rest⟩ = .ok (f s) ⟨s, rest⟩ := rfl

@[simp] theorem command_through (f : σ → σ) (s : σ) (rest : List (Option ε)) :
    (command f : Prog ε σ Unit) ⟨s, none :: rest⟩ = .ok () ⟨f s, rest⟩ := rfl

@[simp] theorem call_raises (op : σ → Except ε α × σ) (e : ε) (s : σ)
    (rest : List (Option ε)) : call op ⟨s, some e :: rest⟩ = .error e ⟨s, rest⟩ := rfl

@[simp] theorem shortOr_quiet {x : Prog ε σ Bool} {s t : σ} {b : Bool}
    (hx : x ⟨s, []⟩ = .ok b ⟨t, []⟩) (y : Prog ε σ Bool) :
    shortOr x y ⟨s, []⟩ = if b then .ok true ⟨t, []⟩ else y ⟨t, []⟩ := by
  simp only [shortOr, bind_apply, hx]
  cases b <;> rfl

@[simp] theorem shortAnd_quiet {x : Prog ε σ Bool} {s t : σ} {b : Bool}
    (hx : x ⟨s, []⟩ = .ok b ⟨t, []⟩) (y : Prog ε σ Bool) :
    shortAnd x y ⟨s, []⟩ = if b then y ⟨t, []⟩ else .ok false ⟨t, []⟩ := by
  simp only [shortAnd, bind_apply, hx]
  cases b <;> rfl

theorem forEach_quiet {f : α → Prog ε σ Unit} {step : σ → α → σ}
    (hf : ∀ a s, f a ⟨s, []⟩ = .ok () ⟨step s a, []⟩) (l : List α) (s : σ) :
    forEach f l ⟨s, []⟩ = .ok () ⟨l.foldl step s, []⟩ := by
  induction l generalizing s with
  | nil => rfl
  | cons a l ih => simp only [forEach, bind_apply, hf, ih, List.foldl_cons]

theorem collect_quiet {f : α → Prog ε σ β} {g : α → β} {l : List α} {s : σ}
    (hf : ∀ a ∈ l, f a ⟨s, []⟩ = .ok (g a) ⟨s, []⟩) :
    collect f l ⟨s, []⟩ = .ok (l.map g) ⟨s, []⟩ := by
  induction l with
  | nil => rfl
  | cons a l ih =>
    have htail := ih fun b hb => hf b (List.mem_cons_of_mem a hb)
    simp only [collect, bind_apply, hf a List.mem_cons_self, htail, pure_apply, List.map_cons]

theorem foldlM_quiet {f : β → α → Prog ε σ β} {step : β → α → β} {l : List α} {s : σ}
    (hf : ∀ b, ∀ a ∈ l, f b a ⟨s, []⟩ = .ok (step b a) ⟨s, []⟩) (b : β) :
    l.foldlM f b ⟨s, []⟩ = .ok (l.foldl step b) ⟨s, []⟩ := by
  induction l generalizing b with
  | nil => rfl
  | cons a l ih =>
    have htail := ih fun c d hd => hf c d (List.mem_cons_of_mem a hd)
    rw [List.foldlM_cons, bind_apply, hf b a List.mem_cons_self, List.foldl_cons]
    exact htail (step b a)

end CarbonMessaging.FaultyCalls
