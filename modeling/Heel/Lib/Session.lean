/-! Code that talks to a database: statements see what was written so far, a commit keeps it, a
rollback goes back to the last commit, and an exception leaves everything as it is. -/
namespace Lib

/-- What the statements of a connection see, and what the last commit kept. -/
structure Connection (σ : Type) where
  working : σ
  committed : σ
  deriving DecidableEq, Repr

/-- A connection without uncommitted changes. -/
def Connection.clean {σ : Type} (s : σ) : Connection σ := ⟨s, s⟩

@[simp] theorem Connection.working_clean {σ : Type} (s : σ) : (clean s).working = s := rfl

@[simp] theorem Connection.committed_clean {σ : Type} (s : σ) : (clean s).committed = s := rfl

def Session (σ ε α : Type) : Type := Connection σ → Connection σ × Except ε α

namespace Session
variable {σ ε α β : Type}

protected def pure (a : α) : Session σ ε α := fun c => (c, .ok a)

protected def bind (m : Session σ ε α) (f : α → Session σ ε β) : Session σ ε β := fun c =>
  match m c with
  | (c, .ok a) => f a c
  | (c, .error e) => (c, .error e)

instance : Monad (Session σ ε) where
  pure := Session.pure
  bind := Session.bind

def read (f : σ → α) : Session σ ε α := fun c => (c, .ok (f c.working))

def write (f : σ → σ) : Session σ ε Unit := fun c => ({ c with working := f c.working }, .ok ())

def raise (e : ε) : Session σ ε α := fun c => (c, .error e)

def commit : Session σ ε Unit := fun c => (.clean c.working, .ok ())

/-- `if not p: raise e`. -/
def demand (p : Bool) (e : ε) : Session σ ε Unit := bif p then pure () else raise e

/-- An insert that a uniqueness constraint may refuse. -/
def insert (clash : σ → Bool) (e : ε) (f : σ → σ) : Session σ ε Unit := fun c =>
  if clash c.working then (c, .error e) else ({ c with working := f c.working }, .ok ())

/-- `try: body; except passing: raise; except Exception: rollback; raise`. -/
def guarded (passing : ε → Bool) (body : Session σ ε α) : Session σ ε α := fun c =>
  match body c with
  | (c, .ok a) => (c, .ok a)
  | (c, .error e) => if passing e then (c, .error e) else (.clean c.committed, .error e)

/-- `try: body; except Exception: rollback; raise`. -/
def transaction (body : Session σ ε α) : Session σ ε α := guarded (fun _ => false) body

variable {c : Connection σ}

theorem run_bind (m : Session σ ε α) (k : α → Session σ ε β) : (m >>= k) c = match m c with
    | (c, .ok a) => k a c
    | (c, .error e) => (c, .error e) := rfl

theorem run_bind_ok {m : Session σ ε α} {c' : Connection σ} {a : α} (h : m c = (c', .ok a))
    (k : α → Session σ ε β) : (m >>= k) c = k a c' := by
  rw [run_bind, h]

theorem run_bind_error {m : Session σ ε α} {e : ε} (h : (m c).2 = .error e)
    (k : α → Session σ ε β) : (m >>= k) c = ((m c).1, .error e) := by
  rw [run_bind]
  rcases hrun : m c with ⟨c', r⟩
  rw [hrun] at h
  subst h
  rfl

@[simp] theorem run_pure (a : α) : (pure a : Session σ ε α) c = (c, .ok a) := rfl

@[simp] theorem run_read (f : σ → α) (k : α → Session σ ε β) :
    (read f >>= k) c = k (f c.working) c := rfl

@[simp] theorem run_write (f : σ → σ) (k : Unit → Session σ ε β) :
    (write f >>= k) c = k () { c with working := f c.working } := rfl

@[simp] theorem run_raise (e : ε) : (raise e : Session σ ε α) c = (c, .error e) := rfl

@[simp] theorem run_raise_bind (e : ε) (k : α → Session σ ε β) :
    (raise e >>= k) c = (c, .error e) := rfl

@[simp] theorem run_commit (k : Unit → Session σ ε β) :
    (commit >>= k) c = k () (.clean c.working) := rfl

@[simp] theorem run_demand (p : Bool) (e : ε) (k : Unit → Session σ ε β) :
    (demand p e >>= k) c = bif p then k () c else (c, .error e) := by
  cases p <;> rfl

@[simp] theorem run_insert (clash : σ → Bool) (e : ε) (f : σ → σ) (k : Unit → Session σ ε β) :
    (insert clash e f >>= k) c =
      bif clash c.working then (c, .error e) else k () { c with working := f c.working } := by
  rw [run_bind, insert]
  cases clash c.working <;> rfl

@[simp] theorem run_assoc (m : Session σ ε α) (k : α → Session σ ε β) (l : β → Session σ ε γ) :
    ((m >>= k) >>= l) c = (m >>= fun a => k a >>= l) c := by
  simp only [run_bind]
  rcases m c with ⟨c', a | a⟩ <;> rfl

theorem run_transaction (m : Session σ ε α) : transaction m c = match m c with
    | (c, .ok a) => (c, .ok a)
    | (c, .error e) => (.clean c.committed, .error e) := by
  unfold transaction guarded
  rcases m c with ⟨c', a | a⟩ <;> rfl

def Keeps (m : Session σ ε α) : Prop := ∀ c, (m c).1.committed = c.committed

theorem Keeps.pure (a : α) : Keeps (Pure.pure a : Session σ ε α) := fun _ => rfl

theorem Keeps.read (f : σ → α) : Keeps (read f : Session σ ε α) := fun _ => rfl

theorem Keeps.write (f : σ → σ) : Keeps (write f : Session σ ε Unit) := fun _ => rfl

theorem Keeps.raise (e : ε) : Keeps (raise e : Session σ ε α) := fun _ => rfl

theorem Keeps.demand (p : Bool) (e : ε) : Keeps (demand p e : Session σ ε Unit) := by
  cases p
  · exact .raise e
  · exact .pure ()

theorem Keeps.insert (clash : σ → Bool) (e : ε) (f : σ → σ) :
    Keeps (insert clash e f : Session σ ε Unit) := by
  intro c
  unfold Session.insert
  split <;> rfl

theorem Keeps.bind {m : Session σ ε α} {k : α → Session σ ε β} (hm : Keeps m)
    (hk : ∀ a, Keeps (k a)) : Keeps (m >>= k) := by
  intro c
  have h := hm c
  rw [run_bind]
  rcases hrun : m c with ⟨c', e | a⟩ <;> rw [hrun] at h
  · exact h
  · exact (hk a c').trans h

theorem transaction_ok {m : Session σ ε α} {c' : Connection σ} {a : α} (h : m c = (c', .ok a)) :
    transaction (m >>= fun a => commit >>= fun _ => pure a) c = (.clean c'.working, .ok a) := by
  rw [run_transaction, run_bind_ok h]
  rfl

theorem transaction_error {m : Session σ ε α} (hm : Keeps m) {e : ε} (h : (m c).2 = .error e) :
    transaction (m >>= fun a => commit >>= fun _ => pure a) c = (.clean c.committed, .error e) := by
  rw [run_transaction, run_bind_error h]
  exact Prod.ext (congrArg Connection.clean (hm c)) rfl

end Session
end Lib
