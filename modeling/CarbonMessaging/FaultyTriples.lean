import CarbonMessaging.FaultyCalls

/-! Rules of pre- and postconditions for programs whose calls may raise. A triple speaks of
every list of outcomes at once: an answer ends in `Q`, an exception in `E`, wherever along the
way it was raised. -/

namespace CarbonMessaging.FaultyCalls

variable {ε σ α β : Type}

def Holds (P : σ → Prop) (x : Prog ε σ α) (Q : α → σ → Prop) (E : ε → σ → Prop) : Prop :=
  ∀ site : Site ε σ, P site.state →
    match x site with
    | .ok a t => Q a t.state
    | .error e t => E e t.state

/-- However it ends, the program leaves `I` true. -/
def Keeps (I : σ → Prop) (x : Prog ε σ α) : Prop := Holds I x (fun _ => I) (fun _ => I)

variable {P : σ → Prop} {x : Prog ε σ α} {Q : α → σ → Prop} {E : ε → σ → Prop}

theorem Holds.mono {P' : σ → Prop} {Q' : α → σ → Prop} {E' : ε → σ → Prop}
    (h : Holds P x Q E) (hP : ∀ s, P' s → P s) (hQ : ∀ a s, Q a s → Q' a s)
    (hE : ∀ e s, E e s → E' e s) : Holds P' x Q' E' := by
  intro site hs
  have h := h site (hP _ hs)
  cases hx : x site with
  | ok a t => rw [hx] at h; exact hQ a _ h
  | error e t => rw [hx] at h; exact hE e _ h

theorem holds_pure {a : α} (h : ∀ s, P s → Q a s) : Holds P (pure a : Prog ε σ α) Q E :=
  fun site hs => h site.state hs

theorem holds_raise {e : ε} (h : ∀ s, P s → E e s) : Holds P (raise e : Prog ε σ α) Q E :=
  fun site hs => h site.state hs

theorem holds_orRaise {r : Except ε α} (hok : ∀ a, r = .ok a → ∀ s, P s → Q a s)
    (herror : ∀ e, r = .error e → ∀ s, P s → E e s) : Holds P (orRaise r) Q E := by
  cases r with
  | ok a => exact holds_pure (hok a rfl)
  | error e => exact holds_raise (herror e rfl)

theorem holds_orRaise_bind {r : Except ε α} {f : α → Prog ε σ β} {R : β → σ → Prop}
    (hok : ∀ a, r = .ok a → Holds P (f a) R E) (herror : ∀ e, r = .error e → ∀ s, P s → E e s) :
    Holds P (orRaise r >>= f) R E := by
  cases r with
  | ok a => exact fun site hs => hok a rfl site hs
  | error e => exact fun site hs => herror e rfl site.state hs

theorem holds_bind {f : α → Prog ε σ β} {R : β → σ → Prop} (hx : Holds P x Q E)
    (hf : ∀ a, Holds (Q a) (f a) R E) : Holds P (x >>= f) R E := by
  intro site hs
  have h := hx site hs
  rw [bind_apply]
  cases hr : x site with
  | ok a t => rw [hr] at h; exact hf a t h
  | error e t => rw [hr] at h; exact h

theorem holds_translate {f : ε → ε} (h : Holds P x Q fun e => E (f e)) :
    Holds P (translate f x) Q E := by
  intro site hs
  have h := h site hs
  rw [translate_apply]
  cases hr : x site with
  | ok a t => rw [hr] at h; exact h
  | error e t => rw [hr] at h; exact h

theorem holds_handling {f : ε → Prog ε σ α} {R : ε → σ → Prop} (hx : Holds P x Q R)
    (hf : ∀ e, Holds (R e) (f e) Q E) : Holds P (handling x f) Q E := by
  intro site hs
  have h := hx site hs
  rw [handling_apply]
  cases hr : x site with
  | ok a t => rw [hr] at h; exact h
  | error e t => rw [hr] at h; exact hf e t h

theorem holds_call {op : σ → Except ε α × σ} (hraised : ∀ e s, P s → E e s)
    (hop : ∀ s, P s → match op s with
      | (.ok a, t) => Q a t
      | (.error e, t) => E e t) : Holds P (call op) Q E := by
  intro site hs
  obtain ⟨s, outcomes⟩ := site
  have h := hop s hs
  have hthrough : ∀ rest : List (Option ε), match (match op s with
      | (.ok a, t) => EStateM.Result.ok a (Site.mk t rest)
      | (.error e, t) => .error e ⟨t, rest⟩) with
      | .ok a t => Q a t.state
      | .error e t => E e t.state := by
    intro rest
    cases hr : op s with
    | mk r t =>
      rw [hr] at h
      cases r <;> exact h
  match outcomes with
  | [] => exact hthrough []
  | none :: rest => exact hthrough rest
  | some e :: rest => exact hraised e s hs

theorem holds_query {f : σ → α} (hraised : ∀ e s, P s → E e s) (h : ∀ s, P s → Q (f s) s) :
    Holds P (query f : Prog ε σ α) Q E := holds_call hraised h

theorem holds_command {f : σ → σ} {Q : Unit → σ → Prop} (hraised : ∀ e s, P s → E e s)
    (h : ∀ s, P s → Q () (f s)) : Holds P (command f : Prog ε σ Unit) Q E :=
  holds_call hraised h

theorem holds_peek {f : σ → α} (h : ∀ s, P s → Q (f s) s) :
    Holds P (peek f : Prog ε σ α) Q E := fun site hs => h site.state hs

theorem holds_poke {f : σ → σ} {Q : Unit → σ → Prop} (h : ∀ s, P s → Q () (f s)) :
    Holds P (poke f : Prog ε σ Unit) Q E := fun site hs => h site.state hs

theorem holds_shortOr {x y : Prog ε σ Bool} {Q R : Bool → σ → Prop} (hx : Holds P x R E)
    (htrue : ∀ s, R true s → Q true s) (hy : Holds (R false) y Q E) :
    Holds P (shortOr x y) Q E := by
  refine holds_bind hx fun b => ?_
  cases b with
  | true => exact holds_pure htrue
  | false => exact hy

theorem holds_shortAnd {x y : Prog ε σ Bool} {Q R : Bool → σ → Prop} (hx : Holds P x R E)
    (hfalse : ∀ s, R false s → Q false s) (hy : Holds (R true) y Q E) :
    Holds P (shortAnd x y) Q E := by
  refine holds_bind hx fun b => ?_
  cases b with
  | true => exact hy
  | false => exact holds_pure hfalse

/-- A loop's invariant speaks of the elements it is through with. -/
theorem holds_forEach {f : α → Prog ε σ Unit} {I : List α → σ → Prop} {l : List α}
    (h : ∀ done a rest, l = done ++ a :: rest →
      Holds (I done) (f a) (fun _ => I (done ++ [a])) E) :
    Holds (I []) (forEach f l) (fun _ => I l) E := by
  have hrest : ∀ rest done, l = done ++ rest →
      Holds (I done) (forEach f rest) (fun _ => I l) E := by
    intro rest
    induction rest with
    | nil =>
      intro done hl
      rw [List.append_nil] at hl
      exact holds_pure fun _ hs => hl ▸ hs
    | cons a rest ih =>
      intro done hl
      refine holds_bind (h done a rest hl) fun _ => ih (done ++ [a]) ?_
      rw [hl, List.append_assoc, List.singleton_append]
  exact hrest l [] rfl

/-- What the precondition says besides the state is a fact for the rest of the proof. -/
theorem holds_of_fact {fact : Prop} (h : fact → Holds P x Q E) :
    Holds (fun s => fact ∧ P s) x Q E := fun site hs => h hs.1 site hs.2

theorem holds_of_states (h : ∀ w, P w → Holds (· = w) x Q E) : Holds P x Q E :=
  fun site hs => h site.state hs site rfl

section
variable {w : σ} {R : β → σ → Prop}

theorem holds_call_bind {op : σ → Except ε α × σ} {g : α → Prog ε σ β} {a : α} {w' : σ}
    (hop : op w = (.ok a, w')) (hraised : ∀ e, E e w) (h : Holds (· = w') (g a) R E) :
    Holds (· = w) (call op >>= g) R E := by
  refine holds_bind (Q := fun b s => b = a ∧ s = w') (holds_call ?_ ?_) fun b => ?_
  · rintro e s rfl
    exact hraised e
  · rintro s rfl
    rw [hop]
    exact ⟨rfl, rfl⟩
  · refine holds_of_fact fun hb => ?_
    rw [hb]
    exact h

theorem holds_query_bind {f : σ → α} {g : α → Prog ε σ β} (hraised : ∀ e, E e w)
    (h : Holds (· = w) (g (f w)) R E) : Holds (· = w) (query f >>= g) R E :=
  holds_call_bind rfl hraised h

theorem holds_peek_bind {f : σ → α} {g : α → Prog ε σ β} (h : Holds (· = w) (g (f w)) R E) :
    Holds (· = w) (peek f >>= g) R E := by
  rintro site rfl
  exact h site rfl

theorem holds_poke_bind {f : σ → σ} {g : Unit → Prog ε σ β}
    (h : Holds (· = f w) (g ()) R E) : Holds (· = w) (poke f >>= g) R E := by
  rintro site rfl
  exact h ⟨f site.state, site.outcomes⟩ rfl

end

theorem Holds.finalAt {R : σ → Prop} (h : Holds P x (fun _ => R) fun _ => R) {site : Site ε σ}
    (hs : P site.state) : R (finalAt x site) := by
  have h := h site hs
  unfold FaultyCalls.finalAt
  cases hr : x site with
  | ok a t => rw [hr] at h; exact h
  | error e t => rw [hr] at h; exact h

theorem finalAt_translate {f : ε → ε} {site : Site ε σ} :
    finalAt (translate f x) site = finalAt x site := by
  simp only [finalAt, translate_apply]
  cases x site <;> rfl

theorem finalAt_bind {f : α → Prog ε σ β} {site t : Site ε σ} {a : α} (h : x site = .ok a t) :
    finalAt (x >>= f) site = finalAt (f a) t := by
  simp only [finalAt, bind_apply, h]

section
variable {I : σ → Prop}

theorem keeps_pure (a : α) : Keeps I (pure a : Prog ε σ α) := holds_pure fun _ h => h

theorem keeps_raise (e : ε) : Keeps I (raise e : Prog ε σ α) := holds_raise fun _ h => h

theorem keeps_orRaise (r : Except ε α) : Keeps I (orRaise r : Prog ε σ α) :=
  holds_orRaise (fun _ _ _ h => h) (fun _ _ _ h => h)

theorem keeps_bind {f : α → Prog ε σ β} (hx : Keeps I x) (hf : ∀ a, Keeps I (f a)) :
    Keeps I (x >>= f) := holds_bind hx hf

theorem keeps_translate {f : ε → ε} (h : Keeps I x) : Keeps I (translate f x) :=
  holds_translate h

theorem keeps_query (f : σ → α) : Keeps I (query f : Prog ε σ α) :=
  holds_query (fun _ _ h => h) (fun _ h => h)

theorem keeps_command {f : σ → σ} (h : ∀ s, I s → I (f s)) :
    Keeps I (command f : Prog ε σ Unit) := holds_command (fun _ _ h => h) h

theorem keeps_peek (f : σ → α) : Keeps I (peek f : Prog ε σ α) := holds_peek fun _ h => h

theorem keeps_forEach {f : α → Prog ε σ Unit} (l : List α) (h : ∀ a ∈ l, Keeps I (f a)) :
    Keeps I (forEach f l) := by
  induction l with
  | nil => exact keeps_pure ()
  | cons a l ih =>
    exact keeps_bind (h a (by simp)) fun _ => ih fun b hb => h b (by simp [hb])

theorem keeps_mapM {f : α → Prog ε σ β} (h : ∀ a, Keeps I (f a)) (l : List α) :
    Keeps I (l.mapM f) := by
  induction l with
  | nil => exact keeps_pure []
  | cons a l ih =>
    rw [List.mapM_cons]
    exact keeps_bind (h a) fun b => keeps_bind ih fun bs => keeps_pure (b :: bs)

theorem Keeps.final {s : σ} (h : Keeps I x) (hs : I s) : I (final x s) :=
  Holds.finalAt h hs

end

/-- What the clause raises takes the place of how the program ended. -/
def andFinally (x : Prog ε σ α) (cleanup : Prog ε σ Unit) : Prog ε σ α := fun site =>
  match x site with
  | .ok a t =>
    match cleanup t with
    | .ok _ u => .ok a u
    | .error e u => .error e u
  | .error e t =>
    match cleanup t with
    | .ok _ u => .error e u
    | .error e u => .error e u

theorem holds_andFinally {cleanup : Prog ε σ Unit} {R : α → σ → Prop} {F : ε → σ → Prop}
    (hx : Holds P x R F) (hok : ∀ a, Holds (R a) cleanup (fun _ => Q a) E)
    (hraised : ∀ e, Holds (F e) cleanup (fun _ => E e) E) :
    Holds P (andFinally x cleanup) Q E := by
  intro site hs
  have h := hx site hs
  rw [andFinally]
  cases hrun : x site with
  | ok a t =>
    rw [hrun] at h
    have hclean := hok a t h
    cases hcleanup : cleanup t <;> simpa only [hcleanup] using hclean
  | error e t =>
    rw [hrun] at h
    have hclean := hraised e t h
    cases hcleanup : cleanup t <;> simpa only [hcleanup] using hclean

end CarbonMessaging.FaultyCalls
