import CarbonMessaging.FaultyTriples

/-! Two runs side by side. A relation between the states two runs start in is carried through
programs that cannot tell related states apart, and through systems whose other actions leave
related states related. -/

namespace CarbonMessaging.FaultyCalls

variable {ε σ α α' β β' : Type}

theorem query_raises (f : σ → α) (e : ε) (s : σ) (rest : List (Option ε)) :
    (query f : Prog ε σ α) ⟨s, some e :: rest⟩ = .error e ⟨s, rest⟩ := rfl

/-- Lists of outcomes that may lie ahead, also after any number of calls. -/
structure Forecast (ε : Type) where
  allows : List (Option ε) → Prop
  tail : ∀ outcomes, allows outcomes → allows outcomes.tail

def Forecast.any : Forecast ε := ⟨fun _ => True, fun _ _ => trivial⟩

def Forecast.clear : Forecast ε := ⟨(· = []), by rintro _ rfl; rfl⟩

inductive EndAlike (forecast : Forecast ε) (S : α → α' → σ → σ → Prop) (E : σ → σ → Prop) :
    EStateM.Result ε (Site ε σ) α → EStateM.Result ε (Site ε σ) α' → Prop where
  | ok {a : α} {a' : α'} {s s' : σ} {outcomes : List (Option ε)}
      (hahead : forecast.allows outcomes) (h : S a a' s s') :
      EndAlike forecast S E (.ok a ⟨s, outcomes⟩) (.ok a' ⟨s', outcomes⟩)
  | error {e : ε} {s s' : σ} {outcomes : List (Option ε)}
      (hahead : forecast.allows outcomes) (h : E s s') :
      EndAlike forecast S E (.error e ⟨s, outcomes⟩) (.error e ⟨s', outcomes⟩)

/-- From states related by `R` the two programs end alike: related by `S` where they return and
by `E` where they raise. -/
def Alike (forecast : Forecast ε) (R : σ → σ → Prop) (x : Prog ε σ α) (x' : Prog ε σ α')
    (S : α → α' → σ → σ → Prop) (E : σ → σ → Prop) : Prop :=
  ∀ s s' outcomes, forecast.allows outcomes → R s s' →
    EndAlike forecast S E (x ⟨s, outcomes⟩) (x' ⟨s', outcomes⟩)

def Blind (forecast : Forecast ε) (R : σ → σ → Prop) (x : Prog ε σ α) : Prop :=
  Alike forecast R x x (fun a a' s s' => a = a' ∧ R s s') R

variable {forecast : Forecast ε} {R : σ → σ → Prop} {x : Prog ε σ α} {x' : Prog ε σ α'}
  {S : α → α' → σ → σ → Prop} {E : σ → σ → Prop}

theorem EndAlike.mono {S' : α → α' → σ → σ → Prop} {E' : σ → σ → Prop}
    {r : EStateM.Result ε (Site ε σ) α} {r' : EStateM.Result ε (Site ε σ) α'}
    (h : EndAlike forecast S E r r') (hS : ∀ a a' s s', S a a' s s' → S' a a' s s')
    (hE : ∀ s s', E s s' → E' s s') : EndAlike forecast S' E' r r' := by
  cases h with
  | ok hahead h => exact .ok hahead (hS _ _ _ _ h)
  | error hahead h => exact .error hahead (hE _ _ h)

theorem Alike.mono {R' : σ → σ → Prop} {S' : α → α' → σ → σ → Prop} {E' : σ → σ → Prop}
    (h : Alike forecast R x x' S E) (hR : ∀ s s', R' s s' → R s s')
    (hS : ∀ a a' s s', S a a' s s' → S' a a' s s') (hE : ∀ s s', E s s' → E' s s') :
    Alike forecast R' x x' S' E' := fun s s' outcomes hahead hs =>
  (h s s' outcomes hahead (hR s s' hs)).mono hS hE

theorem alike_pure {a : α} {a' : α'} (h : ∀ s s', R s s' → S a a' s s') :
    Alike forecast R (pure a) (pure a') S E :=
  fun s s' _ hahead hs => .ok hahead (h s s' hs)

theorem alike_raise {e : ε} (h : ∀ s s', R s s' → E s s') :
    Alike forecast R (raise e) (raise e) S E :=
  fun s s' _ hahead hs => .error hahead (h s s' hs)

theorem alike_orRaise {r : Except ε α} {S : α → α → σ → σ → Prop}
    (hok : ∀ a s s', r = .ok a → R s s' → S a a s s') (herror : ∀ s s', R s s' → E s s') :
    Alike forecast R (orRaise r) (orRaise r) S E := by
  cases r with
  | ok a => exact alike_pure fun s s' => hok a s s' rfl
  | error e => exact alike_raise herror

theorem alike_bind {f : α → Prog ε σ β} {f' : α' → Prog ε σ β'} {T : β → β' → σ → σ → Prop}
    (hx : Alike forecast R x x' S E)
    (hf : ∀ a a', Alike forecast (S a a') (f a) (f' a') T E) :
    Alike forecast R (x >>= f) (x' >>= f') T E := by
  intro s s' outcomes hahead hs
  have h := hx s s' outcomes hahead hs
  rw [bind_apply, bind_apply]
  generalize x ⟨s, outcomes⟩ = r at h ⊢
  generalize x' ⟨s', outcomes⟩ = r' at h ⊢
  cases h with
  | ok hahead h => exact hf _ _ _ _ _ hahead h
  | error hahead h => exact .error hahead h

theorem alike_translate {f : ε → ε} (h : Alike forecast R x x' S E) :
    Alike forecast R (translate f x) (translate f x') S E := by
  intro s s' outcomes hahead hs
  have h := h s s' outcomes hahead hs
  rw [translate_apply, translate_apply]
  generalize x ⟨s, outcomes⟩ = r at h ⊢
  generalize x' ⟨s', outcomes⟩ = r' at h ⊢
  cases h with
  | ok hahead h => exact .ok hahead h
  | error hahead h => exact .error hahead h

theorem alike_handling {f : ε → Prog ε σ α} {f' : ε → Prog ε σ α'} {F : σ → σ → Prop}
    (hx : Alike forecast R x x' S F) (hf : ∀ e, Alike forecast F (f e) (f' e) S E) :
    Alike forecast R (handling x f) (handling x' f') S E := by
  intro s s' outcomes hahead hs
  have h := hx s s' outcomes hahead hs
  rw [handling_apply, handling_apply]
  generalize x ⟨s, outcomes⟩ = r at h ⊢
  generalize x' ⟨s', outcomes⟩ = r' at h ⊢
  cases h with
  | ok hahead h => exact .ok hahead h
  | error hahead h => exact hf _ _ _ _ hahead h

theorem alike_call {op : σ → Except ε α × σ} {op' : σ → Except ε α' × σ}
    (hraised : ∀ s s', R s s' → E s s')
    (h : ∀ s s', R s s' → (∃ a a' t t', op s = (.ok a, t) ∧ op' s' = (.ok a', t') ∧ S a a' t t') ∨
      ∃ e t t', op s = (.error e, t) ∧ op' s' = (.error e, t') ∧ E t t') :
    Alike forecast R (call op) (call op') S E := by
  intro s s' outcomes hahead hs
  have hthrough (rest : List (Option ε)) (hrest : forecast.allows rest) :
      EndAlike forecast S E (call op ⟨s, none :: rest⟩) (call op' ⟨s', none :: rest⟩) := by
    rcases h s s' hs with ⟨a, a', t, t', hop, hop', hends⟩ | ⟨e, t, t', hop, hop', hends⟩
    · simp only [call, hop, hop']
      exact .ok hrest hends
    · simp only [call, hop, hop']
      exact .error hrest hends
  have hrest := forecast.tail outcomes hahead
  rcases outcomes with _ | ⟨_ | e, rest⟩
  · exact hthrough [] hrest
  · exact hthrough rest hrest
  · exact .error hrest (hraised s s' hs)

theorem alike_query {f : σ → α} {f' : σ → α'} (hraised : ∀ s s', R s s' → E s s')
    (h : ∀ s s', R s s' → S (f s) (f' s') s s') :
    Alike forecast R (query f) (query f') S E :=
  alike_call hraised fun s s' hs => .inl ⟨f s, f' s', s, s', rfl, rfl, h s s' hs⟩

theorem alike_command {f f' : σ → σ} {S : Unit → Unit → σ → σ → Prop}
    (hraised : ∀ s s', R s s' → E s s') (h : ∀ s s', R s s' → S () () (f s) (f' s')) :
    Alike forecast R (command f) (command f') S E :=
  alike_call hraised fun s s' hs => .inl ⟨(), (), f s, f' s', rfl, rfl, h s s' hs⟩

theorem alike_peek {f : σ → α} {f' : σ → α'} (h : ∀ s s', R s s' → S (f s) (f' s') s s') :
    Alike forecast R (peek f) (peek f') S E :=
  fun s s' _ hahead hs => .ok hahead (h s s' hs)

theorem alike_peek_bind {f : σ → α} {a : α} {g : α → Prog ε σ β} {g' : α → Prog ε σ β'}
    {T : β → β' → σ → σ → Prop} (hread : ∀ s s', R s s' → f s = a ∧ f s' = a)
    (h : Alike forecast R (g a) (g' a) T E) :
    Alike forecast R (peek f >>= g) (peek f >>= g') T E := by
  intro s s' outcomes hahead hs
  have h := h s s' outcomes hahead hs
  rw [bind_apply, bind_apply, peek_apply, peek_apply]
  dsimp only
  rw [(hread s s' hs).1, (hread s s' hs).2]
  exact h

theorem alike_query_bind {f : σ → α} {a : α} {g : α → Prog ε σ β} {g' : α → Prog ε σ β'}
    {T : β → β' → σ → σ → Prop} (hread : ∀ s s', R s s' → f s = a ∧ f s' = a)
    (hraised : ∀ s s', R s s' → E s s') (h : Alike forecast R (g a) (g' a) T E) :
    Alike forecast R (query f >>= g) (query f >>= g') T E := by
  refine alike_bind (S := fun b b' s s' => b = a ∧ b' = a ∧ R s s')
    (alike_query hraised fun s s' hs => ⟨(hread s s' hs).1, (hread s s' hs).2, hs⟩) fun b b' => ?_
  rintro s s' outcomes hahead ⟨rfl, rfl, hs⟩
  exact h s s' outcomes hahead hs

theorem alike_poke {f : σ → σ} {S : Unit → Unit → σ → σ → Prop}
    (h : ∀ s s', R s s' → S () () (f s) (f s')) :
    Alike forecast R (poke f : Prog ε σ Unit) (poke f) S E :=
  fun s s' _ hahead hs => .ok hahead (h s s' hs)

theorem alike_congr {y : Prog ε σ α} {z : Prog ε σ α'}
    (hx : ∀ s s' outcomes, forecast.allows outcomes → R s s' →
      x ⟨s, outcomes⟩ = y ⟨s, outcomes⟩ ∧ x' ⟨s', outcomes⟩ = z ⟨s', outcomes⟩)
    (h : Alike forecast R y z S E) : Alike forecast R x x' S E := by
  intro s s' outcomes hahead hs
  obtain ⟨hleft, hright⟩ := hx s s' outcomes hahead hs
  rw [hleft, hright]
  exact h s s' outcomes hahead hs

/-- What the relation says besides the states is a fact for the rest of the proof. -/
theorem alike_of_fact {fact : Prop} (h : fact → Alike forecast R x x' S E) :
    Alike forecast (fun s s' => fact ∧ R s s') x x' S E :=
  fun s s' outcomes hahead hs => h hs.1 s s' outcomes hahead hs.2

theorem blind_pure (a : α) : Blind forecast R (pure a) := alike_pure fun _ _ hs => ⟨rfl, hs⟩

theorem blind_raise (e : ε) : Blind forecast R (raise e : Prog ε σ α) :=
  alike_raise fun _ _ hs => hs

theorem blind_orRaise (r : Except ε α) : Blind forecast R (orRaise r) :=
  alike_orRaise (fun _ _ _ _ hs => ⟨rfl, hs⟩) fun _ _ hs => hs

theorem Blind.bind_alike {f : α → Prog ε σ β} {T : β → β → σ → σ → Prop}
    (hx : Blind forecast R x) (hR : ∀ s s', R s s' → E s s')
    (hf : ∀ a, Alike forecast R (f a) (f a) T E) : Alike forecast R (x >>= f) (x >>= f) T E := by
  refine alike_bind (hx.mono (fun _ _ hs => hs) (fun _ _ _ _ hs => hs) hR) fun a a' => ?_
  refine alike_of_fact fun ha => ?_
  rw [← ha]
  exact hf a

theorem blind_bind {f : α → Prog ε σ β} (hx : Blind forecast R x)
    (hf : ∀ a, Blind forecast R (f a)) : Blind forecast R (x >>= f) :=
  hx.bind_alike (fun _ _ hs => hs) hf

theorem blind_translate {f : ε → ε} (h : Blind forecast R x) : Blind forecast R (translate f x) :=
  alike_translate h

theorem blind_handling {f : ε → Prog ε σ α} (hx : Blind forecast R x)
    (hf : ∀ e, Blind forecast R (f e)) : Blind forecast R (handling x f) :=
  alike_handling hx hf

theorem blind_query {f : σ → α} (h : ∀ s s', R s s' → f s = f s') :
    Blind forecast R (query f) :=
  alike_query (fun _ _ hs => hs) fun s s' hs => ⟨h s s' hs, hs⟩

theorem blind_command {f : σ → σ} (h : ∀ s s', R s s' → R (f s) (f s')) :
    Blind forecast R (command f) :=
  alike_command (fun _ _ hs => hs) fun s s' hs => ⟨rfl, h s s' hs⟩

theorem blind_shortOr {x y : Prog ε σ Bool} (hx : Blind forecast R x) (hy : Blind forecast R y) :
    Blind forecast R (shortOr x y) := by
  refine blind_bind hx fun b => ?_
  cases b with
  | true => exact blind_pure true
  | false => exact hy

theorem blind_shortAnd {x y : Prog ε σ Bool} (hx : Blind forecast R x) (hy : Blind forecast R y) :
    Blind forecast R (shortAnd x y) := by
  refine blind_bind hx fun b => ?_
  cases b with
  | true => exact hy
  | false => exact blind_pure false

theorem blind_forEach {f : α → Prog ε σ Unit} (l : List α) (h : ∀ a, Blind forecast R (f a)) :
    Blind forecast R (forEach f l) := by
  induction l with
  | nil => exact blind_pure ()
  | cons a l ih => exact blind_bind (h a) fun _ => ih

theorem blind_mapM {f : α → Prog ε σ β} (l : List α) (h : ∀ a, Blind forecast R (f a)) :
    Blind forecast R (l.mapM f) := by
  induction l with
  | nil =>
    rw [List.mapM_nil]
    exact blind_pure []
  | cons a l ih =>
    rw [List.mapM_cons]
    exact blind_bind (h a) fun _ => blind_bind ih fun _ => blind_pure _

section
variable {ι κ : Type} [DecidableEq κ] (act : ι → σ → β × σ) (label : ι → κ)

def runAll (actions : List ι) (s : σ) : σ := actions.foldl (fun s action => (act action s).2) s

def answersTo (l : κ) : List ι → σ → List β
  | [], _ => []
  | action :: actions, s =>
    if label action = l then (act action s).1 :: answersTo l actions (act action s).2
    else answersTo l actions (act action s).2

variable {act label} {l : κ} {P : ι → Prop}

/-- Actions with other labels keep the relation, and the label's own actions are answered alike
in related states: the run is to the label as if the others had not been there. -/
theorem answersTo_filter
    (hother : ∀ action s s', label action ≠ l → P action → R s s' → R (act action s).2 s')
    (hown : ∀ action s s', label action = l → P action → R s s' →
      (act action s).1 = (act action s').1 ∧ R (act action s).2 (act action s').2)
    (actions : List ι) (hactions : ∀ action ∈ actions, P action) {s s' : σ} (hs : R s s') :
    answersTo act label l actions s =
        answersTo act label l (actions.filter (label · = l)) s' ∧
      R (runAll act actions s) (runAll act (actions.filter (label · = l)) s') := by
  induction actions generalizing s s' with
  | nil => exact ⟨rfl, hs⟩
  | cons action actions ih =>
    have ih' {t t' : σ} (ht : R t t') := ih (fun b hb => hactions b (List.mem_cons_of_mem _ hb)) ht
    by_cases hlabel : label action = l
    · obtain ⟨hanswer, hstep⟩ :=
        hown action s s' hlabel (hactions action List.mem_cons_self) hs
      obtain ⟨hanswers, hend⟩ := ih' hstep
      simp only [List.filter_cons, hlabel, decide_true, if_true, answersTo, runAll,
        List.foldl_cons, hanswer] at hanswers hend ⊢
      exact ⟨congrArg _ hanswers, hend⟩
    · obtain ⟨hanswers, hend⟩ :=
        ih' (hother action s s' hlabel (hactions action List.mem_cons_self) hs)
      simp only [List.filter_cons, hlabel, decide_false, Bool.false_eq_true, if_false, answersTo,
        runAll, List.foldl_cons] at hanswers hend ⊢
      exact ⟨hanswers, hend⟩

end

end CarbonMessaging.FaultyCalls
