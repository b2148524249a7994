import RayonExecutor.Admission
import RayonExecutor.Drain

/-!
# The builder

`RayonExecutorServiceBuilder`, from `src/rayon_executor_service_builder.rs`, with its errors.
Rayon's own builder is a parameter (`Rayon`): it may refuse, and it may start fewer threads than it
is asked for, but at least one and no more. `build` therefore counts the threads of the pool that it
gets, and the service reserves closures for these.

What the other results suppose about a service, that it has a thread, is so for every service that
can be built (`builder_builds`). A setting of zero is refused before Rayon is asked, and of several
settings of one kind the last one counts.
-/

namespace RayonExecutor

open Transition Pool

/-! ## Rayon -/

/-- `usize` at `bits` bits. -/
abbrev Usize (bits : ℕ) := Fin (2^bits)

/-- `rayon::ThreadPoolBuilder`, as far as it is set. -/
structure ThreadPoolBuilder where
  num_threads : ℕ
  thread_name : ℕ → String
  stack_size : Option ℕ

/-- The thread pools of Rayon. -/
structure Rayon where
  ThreadPool : Type
  ThreadPoolBuildError : Type
  build : ThreadPoolBuilder → Except ThreadPoolBuildError ThreadPool
  current_num_threads : ThreadPool → ℕ
  display : ThreadPoolBuildError → String
  /-- A pool has at most as many threads as are asked for, unless these are none, and it has one. -/
  num_threads : ∀ {builder pool}, build builder = .ok pool → builder.num_threads ≠ 0 →
    1 ≤ current_num_threads pool ∧ current_num_threads pool ≤ builder.num_threads

/-- A Rayon that starts at most `limit` threads. -/
def Rayon.capped (limit : ℕ) (h : 1 ≤ limit) : Rayon where
  ThreadPool := ℕ
  ThreadPoolBuildError := Empty
  build builder := .ok (min builder.num_threads limit)
  current_num_threads pool := pool
  display := nofun
  num_threads := by
    rintro builder pool ⟨⟩ hne
    exact ⟨Nat.le_min.2 ⟨Nat.pos_of_ne_zero hne, h⟩, Nat.min_le_left _ _⟩

/-! ## The builder -/

variable {bits : ℕ} {R : Rayon} {W : Watch} {J : Type}

/-- `DEFAULT_THREAD_NAME_PREFIX`. -/
def defaultThreadNamePrefix : String := "qubit-rayon-executor"

/-- `default_rayon_thread_count`, where `available` is what `available_parallelism` returns. -/
def defaultRayonThreadCount (available : Option { n : Usize bits // n ≠ 0 }) : Usize bits :=
  (available.map Subtype.val).getD 1

/-- `RayonExecutorServiceBuilder`. -/
structure RayonExecutorServiceBuilder (bits : ℕ) where
  num_threads : Usize bits
  thread_name_prefix : String
  stack_size : Option (Usize bits)
  task_capacity : Usize bits

/-- `RayonExecutorServiceBuildError`. -/
inductive RayonExecutorServiceBuildError (R : Rayon)
  | zeroThreadCount
  | zeroStackSize
  | zeroTaskCapacity
  | buildFailed (source : R.ThreadPoolBuildError)

/-- The text of an error. -/
def RayonExecutorServiceBuildError.display : RayonExecutorServiceBuildError R → String
  | .zeroThreadCount => "rayon executor service thread count must be greater than zero"
  | .zeroStackSize => "rayon executor service stack size must be greater than zero"
  | .zeroTaskCapacity => "rayon executor service task capacity must be greater than zero"
  | .buildFailed source => "failed to build rayon executor service: " ++ R.display source

/-- `RayonExecutorService`, with the state behind its mutex. -/
structure RayonExecutorService (R : Rayon) (W : Watch) (J : Type) where
  pool : R.ThreadPool
  state : RayonExecutorServiceState W J

namespace RayonExecutorServiceBuilder

/-- `default`. -/
def default (available : Option { n : Usize bits // n ≠ 0 }) :
    RayonExecutorServiceBuilder bits where
  num_threads := defaultRayonThreadCount available
  thread_name_prefix := defaultThreadNamePrefix
  stack_size := none
  task_capacity := 1024

/-- `num_threads`. -/
def numThreads (num_threads : Usize bits) (b : RayonExecutorServiceBuilder bits) :
    RayonExecutorServiceBuilder bits := { b with num_threads := num_threads }

/-- `thread_name_prefix`. -/
def threadNamePrefix (text : String) (b : RayonExecutorServiceBuilder bits) :
    RayonExecutorServiceBuilder bits := { b with thread_name_prefix := text }

/-- `stack_size`. -/
def stackSize (stack_size : Usize bits) (b : RayonExecutorServiceBuilder bits) :
    RayonExecutorServiceBuilder bits := { b with stack_size := some stack_size }

/-- `task_capacity`. -/
def taskCapacity (task_capacity : Usize bits) (b : RayonExecutorServiceBuilder bits) :
    RayonExecutorServiceBuilder bits := { b with task_capacity := task_capacity }

/-- The builder that `build` hands to Rayon. -/
def threadPool (b : RayonExecutorServiceBuilder bits) : ThreadPoolBuilder where
  num_threads := b.num_threads
  thread_name index := b.thread_name_prefix ++ "-" ++ toString index
  stack_size := b.stack_size.map Fin.val

/-- `build`. -/
def build (R : Rayon) (W : Watch) (J : Type) (b : RayonExecutorServiceBuilder bits) :
    Except (RayonExecutorServiceBuildError R) (RayonExecutorService R W J) :=
  if b.num_threads = 0 then .error .zeroThreadCount
  else if b.stack_size = some 0 then .error .zeroStackSize
  else if b.task_capacity = 0 then .error .zeroTaskCapacity
  else
    match R.build b.threadPool with
    | .error source => .error (.buildFailed source)
    -- the reservations are counted by the threads that there are
    | .ok pool => .ok ⟨pool, .new W J b.task_capacity (R.current_num_threads pool)⟩

/-- A call of a setter. -/
inductive Setting (bits : ℕ)
  | numThreads (num_threads : Usize bits)
  | threadNamePrefix (text : String)
  | stackSize (stack_size : Usize bits)
  | taskCapacity (task_capacity : Usize bits)

/-- The builder after a call. -/
def set (b : RayonExecutorServiceBuilder bits) : Setting bits → RayonExecutorServiceBuilder bits
  | .numThreads num_threads => b.numThreads num_threads
  | .threadNamePrefix text => b.threadNamePrefix text
  | .stackSize stack_size => b.stackSize stack_size
  | .taskCapacity task_capacity => b.taskCapacity task_capacity

end RayonExecutorServiceBuilder

/-- `RayonExecutorService::builder` with calls of setters, the first one first. -/
def RayonExecutorService.builder (available : Option { n : Usize bits // n ≠ 0 })
    (settings : List (RayonExecutorServiceBuilder.Setting bits)) :
    RayonExecutorServiceBuilder bits :=
  settings.foldl RayonExecutorServiceBuilder.set (.default available)

/-! ## The last setting counts -/

namespace RayonExecutorServiceBuilder

/-- What a setting says about the number of threads. -/
@[simp] def Setting.numThreads? : Setting bits → Option (Usize bits)
  | .numThreads num_threads => some num_threads
  | _ => none

@[simp] def Setting.threadNamePrefix? : Setting bits → Option String
  | .threadNamePrefix text => some text
  | _ => none

@[simp] def Setting.stackSize? : Setting bits → Option (Usize bits)
  | .stackSize stack_size => some stack_size
  | _ => none

@[simp] def Setting.taskCapacity? : Setting bits → Option (Usize bits)
  | .taskCapacity task_capacity => some task_capacity
  | _ => none

end RayonExecutorServiceBuilder

/-- Of several updates of a part the last one counts, whatever is updated besides. -/
theorem foldl_getLast? {α β γ : Type} {f : α → β → α} {p : α → γ} {g : β → Option γ}
    (hf : ∀ a b, p (f a b) = (g b).getD (p a)) (bs : List β) (a : α) :
    p (bs.foldl f a) = ((bs.filterMap g).getLast?).getD (p a) := by
  induction bs generalizing a with
  | nil => rfl
  | cons b bs ih =>
    rw [List.foldl_cons, ih, hf]
    cases hb : g b with
    | none => rw [List.filterMap_cons_none hb, Option.getD_none]
    | some c => rw [List.filterMap_cons_some hb, List.getLast?_cons, Option.getD_some,
        Option.getD_some]

/-! ## What is built -/

namespace RayonExecutorServiceBuilder

variable {b : RayonExecutorServiceBuilder bits}

/-- Nothing is zero. -/
structure Valid (b : RayonExecutorServiceBuilder bits) : Prop where
  num_threads : b.num_threads ≠ 0
  stack_size : b.stack_size ≠ some 0
  task_capacity : b.task_capacity ≠ 0

/-- What `build` can do: it refuses the first setting that is zero, and otherwise Rayon decides. -/
inductive BuildCases (R : Rayon) (W : Watch) (J : Type) (b : RayonExecutorServiceBuilder bits) :
    Except (RayonExecutorServiceBuildError R) (RayonExecutorService R W J) → Prop
  | zeroThreadCount (h : b.num_threads = 0) : BuildCases R W J b (.error .zeroThreadCount)
  | zeroStackSize (hn : b.num_threads ≠ 0) (h : b.stack_size = some 0) :
      BuildCases R W J b (.error .zeroStackSize)
  | zeroTaskCapacity (hn : b.num_threads ≠ 0) (hs : b.stack_size ≠ some 0)
      (h : b.task_capacity = 0) : BuildCases R W J b (.error .zeroTaskCapacity)
  | buildFailed {source : R.ThreadPoolBuildError} (hv : b.Valid)
      (h : R.build b.threadPool = .error source) :
      BuildCases R W J b (.error (.buildFailed source))
  | built {pool : R.ThreadPool} (hv : b.Valid) (h : R.build b.threadPool = .ok pool) :
      BuildCases R W J b (.ok ⟨pool, .new W J b.task_capacity (R.current_num_threads pool)⟩)

/-- `build` does this and nothing else. -/
theorem build_iff {r : Except (RayonExecutorServiceBuildError R) (RayonExecutorService R W J)} :
    b.build R W J = r ↔ BuildCases R W J b r := by
  unfold build
  constructor
  · rintro rfl
    by_cases hn : b.num_threads = 0
    · rw [if_pos hn]
      exact .zeroThreadCount hn
    rw [if_neg hn]
    by_cases hs : b.stack_size = some 0
    · rw [if_pos hs]
      exact .zeroStackSize hn hs
    rw [if_neg hs]
    by_cases hc : b.task_capacity = 0
    · rw [if_pos hc]
      exact .zeroTaskCapacity hn hs hc
    rw [if_neg hc]
    cases h : R.build b.threadPool with
    | error source => exact .buildFailed ⟨hn, hs, hc⟩ h
    | ok pool => exact .built ⟨hn, hs, hc⟩ h
  · intro h
    cases h with
    | zeroThreadCount h => rw [if_pos h]
    | zeroStackSize hn h => rw [if_neg hn, if_pos h]
    | zeroTaskCapacity hn hs h => rw [if_neg hn, if_neg hs, if_pos h]
    | buildFailed hv h | built hv h =>
      rw [if_neg hv.num_threads, if_neg hv.stack_size, if_neg hv.task_capacity, h]

/-- The defaults are not zero. -/
theorem default_valid (available : Option { n : Usize bits // n ≠ 0 }) (hbits : 16 ≤ bits) :
    (default available).Valid where
  num_threads := by
    have hlt : 1 < 2^bits := Nat.one_lt_two_pow (by omega)
    cases available with
    | none =>
      have hmod : 1 % 2^bits = 1 := Nat.mod_eq_of_lt hlt
      simp [default, defaultRayonThreadCount, Fin.ext_iff, hmod]
    | some n => exact n.2
  stack_size := nofun
  task_capacity := by
    have hle : 2^16 ≤ 2^bits := Nat.pow_le_pow_right (by decide) hbits
    have hmod : 1024 % 2^bits = 1024 := Nat.mod_eq_of_lt (by omega)
    simp [default, Fin.ext_iff, hmod]

/-- No two workers have the same name. -/
theorem thread_name_injective (b : RayonExecutorServiceBuilder bits) :
    Function.Injective b.threadPool.thread_name := by
  intro i j h
  have hrepr : i.repr = j.repr := (String.append_right_inj _).1 h
  have hdigits : Nat.toDigits 10 i = Nat.toDigits 10 j := by
    rw [← Nat.toList_repr, ← Nat.toList_repr, hrepr]
  rw [← Nat.ofDigitChars_ten_toDigits (n := i), hdigits, Nat.ofDigitChars_ten_toDigits]

/-- The service that is built, as a service of the parameters that it has. -/
structure Usable (b : RayonExecutorServiceBuilder bits) (service : RayonExecutorService R W J)
    (cfg : Config) : Prop where
  bits_eq : cfg.bits = bits
  task_capacity : cfg.task_capacity = b.task_capacity
  num_threads : cfg.num_threads = R.current_num_threads service.pool
  state : service.state = (Service.init cfg).shared
  /-- The service has a thread, and no more than it should. -/
  threads : 1 ≤ cfg.num_threads ∧ cfg.num_threads ≤ b.num_threads
  /-- The first job is accepted. -/
  first : ∀ job, ∃ st, service.state.admitJob cfg.bits .returned job = (.ok ⟨0, 1⟩, st)
  /-- The service never holds more tasks than it was told, nor reserves more closures than it has
  threads. -/
  bounded : ∀ tr (s : Service W J), Service.Run cfg tr s →
    s.shared.inner.occupied ≤ b.task_capacity ∧
      s.shared.inner.scheduled ≤ R.current_num_threads service.pool
  /-- No task is left behind. -/
  drained : ∀ tr (s : Service W J), Service.Run cfg tr s → s.threads = 0 → Drained s.shared.inner

/-- Every service that is built is usable. -/
theorem Valid.usable (hv : b.Valid) {pool : R.ThreadPool} (h : R.build b.threadPool = .ok pool) :
    ∃ cfg, Usable b (⟨pool, .new W J b.task_capacity (R.current_num_threads pool)⟩ :
      RayonExecutorService R W J) cfg := by
  have hthreads : 1 ≤ R.current_num_threads pool ∧ R.current_num_threads pool ≤ b.num_threads :=
    R.num_threads h (Fin.val_ne_zero_iff.2 hv.num_threads)
  have hcapacity : 1 ≤ (b.task_capacity : ℕ) :=
    Nat.pos_of_ne_zero (Fin.val_ne_zero_iff.2 hv.task_capacity)
  have hlt := b.task_capacity.isLt
  refine ⟨⟨bits, b.task_capacity, R.current_num_threads pool, hlt,
    hthreads.2.trans_lt b.num_threads.isLt⟩, rfl, rfl, rfl, rfl, hthreads, ?_, ?_, ?_⟩
  · intro job
    generalize ha : (RayonExecutorServiceState.new W J b.task_capacity
      (R.current_num_threads pool)).admitJob bits .returned job = r
    obtain ⟨outcome, st⟩ := r
    cases RayonExecutorServiceState.admitJob_cases ha with
    | shutdown hl => exact absurd rfl hl
    | saturated _ ho =>
      have ho : (b.task_capacity : ℕ) ≤ 0 := ho
      omega
    | exhausted _ _ hid =>
      have hid : 2^bits ≤ 0 + 1 := hid
      omega
    | @accepted count _ _ _ hcount =>
      obtain rfl : count = 1 := by
        simp [RayonExecutorServiceState.new, OrderedMap.length_insert] at hcount
        omega
      exact ⟨_, rfl⟩
  · intro tr s hr
    exact ⟨hr.occupied_le, hr.reservations.bounded.trans_eq hr.config.2⟩
  · intro tr s hr h0
    exact hr.drained hthreads.1 h0

end RayonExecutorServiceBuilder

/-- The builder with the settings `settings`, in this order, and the services that it builds. -/
structure BuilderBuilds (R : Rayon) (W : Watch) (J : Type)
    (available : Option { n : Usize bits // n ≠ 0 })
    (settings : List (RayonExecutorServiceBuilder.Setting bits))
    (b : RayonExecutorServiceBuilder bits) : Prop where
  /-- Of the settings of one kind the last one counts, or else the default. -/
  num_threads : b.num_threads =
    ((settings.filterMap fun s => s.numThreads?).getLast?).getD (defaultRayonThreadCount available)
  thread_name_prefix : b.thread_name_prefix =
    ((settings.filterMap fun s => s.threadNamePrefix?).getLast?).getD defaultThreadNamePrefix
  stack_size : b.stack_size = (settings.filterMap fun s => s.stackSize?).getLast?
  task_capacity : b.task_capacity =
    ((settings.filterMap fun s => s.taskCapacity?).getLast?).getD 1024
  /-- The first setting that is zero is refused. -/
  zeroThreadCount : b.build R W J = .error .zeroThreadCount ↔ b.num_threads = 0
  zeroStackSize : b.build R W J = .error .zeroStackSize ↔
    b.num_threads ≠ 0 ∧ b.stack_size = some 0
  zeroTaskCapacity : b.build R W J = .error .zeroTaskCapacity ↔
    b.num_threads ≠ 0 ∧ b.stack_size ≠ some 0 ∧ b.task_capacity = 0
  /-- If no setting is zero, Rayon decides. -/
  buildFailed : ∀ source, b.build R W J = .error (.buildFailed source) ↔
    b.Valid ∧ R.build b.threadPool = .error source
  built : ∀ service, b.build R W J = .ok service → b.Valid ∧
    R.build b.threadPool = .ok service.pool ∧ ∃ cfg, b.Usable service cfg
  /-- The defaults are not zero, where `usize` has the bits that it has at least. -/
  defaults : 16 ≤ bits → settings = [] → b.Valid
  names : Function.Injective b.threadPool.thread_name

/-- The builder builds services that work. -/
theorem builder_builds (R : Rayon) (W : Watch) (J : Type)
    (available : Option { n : Usize bits // n ≠ 0 })
    (settings : List (RayonExecutorServiceBuilder.Setting bits)) :
    BuilderBuilds R W J available settings (RayonExecutorService.builder available settings) := by
  refine
    { num_threads := foldl_getLast? (fun b s => by cases s <;> rfl) _ _
      thread_name_prefix := foldl_getLast? (fun b s => by cases s <;> rfl) _ _
      stack_size := ?_
      task_capacity := foldl_getLast? (fun b s => by cases s <;> rfl) _ _
      zeroThreadCount := ?_
      zeroStackSize := ?_
      zeroTaskCapacity := ?_
      buildFailed := fun source => ?_
      built := fun service hbuild => ?_
      defaults := ?_
      names := RayonExecutorServiceBuilder.thread_name_injective _ }
  · rw [RayonExecutorService.builder, foldl_getLast? (p := RayonExecutorServiceBuilder.stack_size)
      (g := fun s => s.stackSize?.map some) (fun b s => by cases s <;> rfl)]
    rw [← List.map_filterMap, List.getLast?_map]
    cases (settings.filterMap fun s => s.stackSize?).getLast? <;> rfl
  · exact RayonExecutorServiceBuilder.build_iff.trans
      ⟨fun h => by cases h with | zeroThreadCount h => exact h, .zeroThreadCount⟩
  · exact RayonExecutorServiceBuilder.build_iff.trans
      ⟨fun h => by cases h with | zeroStackSize hn h => exact ⟨hn, h⟩,
        fun h => .zeroStackSize h.1 h.2⟩
  · exact RayonExecutorServiceBuilder.build_iff.trans
      ⟨fun h => by cases h with | zeroTaskCapacity hn hs h => exact ⟨hn, hs, h⟩,
        fun h => .zeroTaskCapacity h.1 h.2.1 h.2.2⟩
  · exact RayonExecutorServiceBuilder.build_iff.trans
      ⟨fun h => by cases h with | buildFailed hv h => exact ⟨hv, h⟩,
        fun h => .buildFailed h.1 h.2⟩
  · cases RayonExecutorServiceBuilder.build_iff.1 hbuild with
    | built hv h => exact ⟨hv, h, hv.usable h⟩
  · rintro hbits rfl
    exact RayonExecutorServiceBuilder.default_valid available hbits

/-- Settings that ask for eight threads, and then for four. -/
def tinySettings : List (RayonExecutorServiceBuilder.Setting 64) :=
  [.numThreads 8, .taskCapacity 3, .numThreads 4]

/-- Four threads are asked for, two are there, and a service with these is built. -/
theorem builder_builds_tiny :
    BuilderBuilds (.capped 2 (by decide)) .versioned ℕ none tinySettings
      (RayonExecutorService.builder none tinySettings) ∧
    ((RayonExecutorService.builder none tinySettings).build (.capped 2 (by decide))
      .versioned ℕ).map (fun service =>
        (service.state.inner.num_threads, service.state.inner.task_capacity)) = .ok (2, 3) :=
  ⟨builder_builds _ _ _ _ _, rfl⟩

end RayonExecutor
