import TrustedCa.Proxy.ShimRuns

/-!
# Descriptors stay registered

An application may add its socket to an epoll instance before it connects it. `epoll_ctl` converts
the socket first, because a registration belongs to the open file, and a conversion by `connect`
would leave the registration behind.

* `Displaces`: the calls after which a descriptor refers to another file. `table_kept`: for a
  descriptor that does not refer to a TCP socket these are the only ones.
* `registrations_kept`: so what is in an epoll instance survives its `connect`. A `bind` ends it.
-/

namespace TrustedCa
namespace Proxy
namespace Shim

open SocketVendor (AF_INET AF_VSOCK SOCK_STREAM)

/-! ## Registrations -/

/-- Every descriptor refers to an open file. -/
def Process.Valid (p : Process) : Prop := ∀ fd i, p.table fd = some i → ∃ f, p.files[i]? = some f

/-- Every file is still there, with its domain and type. -/
def Onward (p p' : Process) : Prop :=
  ∀ (i : Nat) (f : File), p.files[i]? = some f →
    ∃ f' : File, p'.files[i]? = some f' ∧ f'.domain = f.domain ∧ f'.type = f.type

/-- What every call keeps. -/
structure Keeps (p p' : Process) : Prop where
  onward : Onward p p'
  valid : p.Valid → p'.Valid

section Keeps

variable {p p' p'' : Process} {k : Kernel} {fd i : Nat} {f f' : File} {addr : Sockaddr} {ret : Int}

theorem Keeps.refl (p : Process) : Keeps p p := ⟨fun _ f h => ⟨f, h, rfl, rfl⟩, id⟩

theorem Keeps.trans (h : Keeps p p') (h' : Keeps p' p'') : Keeps p p'' := by
  refine ⟨fun i f hf => ?_, fun hv => h'.valid (h.valid hv)⟩
  obtain ⟨f', hf', hdomain, htype⟩ := h.onward i f hf
  obtain ⟨f'', hf'', hdomain', htype'⟩ := h'.onward i f' hf'
  exact ⟨f'', hf'', hdomain'.trans hdomain, htype'.trans htype⟩

/-- What is registered does not matter. -/
theorem keeps_of_eq (hfiles : p'.files = p.files) (htable : p'.table = p.table) : Keeps p p' := by
  refine ⟨fun i f hf => ⟨f, hfiles ▸ hf, rfl, rfl⟩, fun hv fd i hi => ?_⟩
  rw [hfiles]
  exact hv fd i (htable ▸ hi)

theorem keeps_append (fs : List File) : Keeps p { p with files := p.files ++ fs } := by
  have happend {i : Nat} {f : File} (hf : p.files[i]? = some f) : (p.files ++ fs)[i]? = some f :=
    (List.getElem?_append_left (List.getElem?_eq_some_iff.mp hf).1).trans hf
  refine ⟨fun i f hf => ⟨f, happend hf, rfl, rfl⟩, fun hv fd i hi => ?_⟩
  obtain ⟨f, hf⟩ := hv fd i hi
  exact ⟨f, happend hf⟩

theorem keeps_install (fd : Nat) (f : File) : Keeps p (p.install fd f) := by
  refine ⟨(keeps_append [f]).onward, fun hv fd' i hi => ?_⟩
  simp only [Process.install, Function.update_apply] at hi
  split at hi
  · cases hi
    exact ⟨f, List.getElem?_concat_length⟩
  · exact (keeps_append [f]).valid hv fd' i hi

theorem keeps_modify {g : File → File}
    (hg : ∀ f, p.file fd = some f → (g f).domain = f.domain ∧ (g f).type = f.type) :
    Keeps p (p.modify fd g) := by
  cases hi : p.table fd with
  | none =>
    rw [Process.modify_of_none hi]
    exact .refl p
  | some i =>
    have hfile (j : Nat) (f : File) (hf : p.files[j]? = some f) :
        ∃ f' : File, (p.modify fd g).files[j]? = some f' ∧ f'.domain = f.domain ∧
          f'.type = f.type := by
      rw [Process.modify_of_table hi, List.getElem?_modify, hf]
      by_cases hij : i = j
      · subst hij
        exact ⟨g f, by simp, hg f (Process.file_eq_some.mpr ⟨i, hi, hf⟩)⟩
      · exact ⟨f, by simp [hij], rfl, rfl⟩
    refine ⟨hfile, fun hv fd' j hj => ?_⟩
    rw [Process.table_modify] at hj
    obtain ⟨f, hf⟩ := hv fd' j hj
    obtain ⟨f', hf', -⟩ := hfile j f hf
    exact ⟨f', hf'⟩

theorem Dialled.kept (hd : Dialled k addr f f' ret) : f'.domain = f.domain ∧ f'.type = f.type := by
  rcases hd with ⟨-, fl, rfl⟩ | ⟨fl, o, -, -, -, -, rfl⟩ <;> exact ⟨rfl, rfl⟩

theorem libcConnect_keeps {e : Endpoint} (h : libcConnect p k fd e = (p', ret)) : Keeps p p' := by
  rcases libcConnect_cases h with ⟨-, rfl⟩ | ⟨-, f, f', hf, hconnect, rfl⟩
  · exact .refl p'
  · refine keeps_modify fun f₁ hf₁ => ?_
    rw [hf] at hf₁
    cases hf₁
    rcases File.connect_eq_some hconnect with ⟨-, -, rfl⟩ | ⟨-, -, rfl⟩ <;> exact ⟨rfl, rfl⟩

theorem connect_keeps (hc : Connects p k fd addr p' ret) : Keeps p p' := by
  cases hc with
  | libc _ h => exact libcConnect_keeps h
  | connected hf _ _ hd hp' =>
    subst hp'
    refine keeps_modify fun f₁ hf₁ => ?_
    rw [hf] at hf₁
    cases hf₁
    exact hd.kept
  | converted _ _ _ _ hp' => exact hp' ▸ keeps_install _ _
  | @failed f fl fs hf _ _ _ _ hp' =>
    subst hp'
    refine (keeps_append fs).trans (keeps_modify fun f₁ hf₁ => ?_)
    rw [file_append fs hf] at hf₁
    cases hf₁
    exact ⟨rfl, rfl⟩

theorem bind_keeps {r : Option Int} (hb : BindsTo p k fd addr p' r) : Keeps p p' := by
  cases hb with
  | libc _ hp' => exact hp' ▸ .refl p
  | vended _ _ _ _ hp' => exact hp' ▸ keeps_install _ _
  | failed _ _ _ _ hp' => exact hp' ▸ keeps_append _

/-- The process that a descriptor is registered in has its new socket, if it was a TCP one. -/
theorem Registers.before {epfd : Nat} (hr : Registers p k epfd fd p' ret) :
    ∃ q, Keeps p q ∧ q.epoll = p.epoll ∧ libcEpollAdd q k epfd fd = (p', ret) ∧
      (k.socket.isSome ∧ k.dup2 = true → ∀ f, q.file fd = some f →
        ¬ (f.type = SOCK_STREAM ∧ f.isIp)) ∧
      ∀ fd', (∀ f, p.file fd' = some f → ¬ (f.type = SOCK_STREAM ∧ f.isIp)) →
        q.table fd' = p.table fd' := by
  cases hr with
  | libc hno h => exact ⟨p, .refl p, rfl, h, fun _ => hno, fun _ _ => rfl⟩
  | converted hf htype hip _ hdomain _ _ h =>
    refine ⟨_, keeps_install _ _, rfl, h, fun _ f₁ hf₁ => ?_, fun fd' hno => ?_⟩
    · rw [Process.file_install] at hf₁
      cases hf₁
      exact fun h => not_isIp_of_vsock hdomain h.2
    · refine Function.update_of_ne ?_ _ _
      rintro rfl
      exact hno _ hf ⟨htype, hip⟩
  | @failed f fl fs hf _ _ hfail _ h =>
    refine ⟨_, (keeps_append fs).trans (keeps_modify fun f₁ hf₁ => ?_), ?_, h,
      fun hok => absurd hok hfail, fun _ _ => ?_⟩
    · rw [file_append fs hf] at hf₁
      cases hf₁
      exact ⟨rfl, rfl⟩
    · rw [Process.epoll_modify]
    · rw [Process.table_modify]

theorem epollCtlAdd_keeps {epfd : Nat} (hr : Registers p k epfd fd p' ret) : Keeps p p' := by
  obtain ⟨q, hq, -, hadd, -⟩ := hr.before
  exact hq.trans (keeps_of_eq (libcEpollAdd_files hadd).1 (libcEpollAdd_files hadd).2)

/-- The calls after which a descriptor refers to another file, or to none. -/
def Displaces (p : Process) (k : Kernel) (fd : Nat) : Call → Prop
  | .close fd' => fd' = fd
  | .dup2 old new => new = fd ∧ (p.table old).isSome ∧ p.table old ≠ p.table new
  | .bind fd' addr =>
    fd' = fd ∧ (k.socket.isSome ∧ k.dup2 = true) ∧ ∃ f, p.file fd = some f ∧ Vended f addr
  | .socket .. | .epollAdd .. | .epollDel .. | .connect .. | .listen .. | .accept4 .. => False

/-- A descriptor that does not refer to a TCP socket stays where it is. -/
theorem table_kept {c : Call} {r : Option Int} (hi : p.table fd = some i)
    (hf : p.files[i]? = some f) (hno : ¬ (f.type = SOCK_STREAM ∧ f.isIp))
    (h : step p k c = some (p', r)) : p'.table fd = some i ↔ ¬ Displaces p k fd c := by
  obtain ⟨hfresh, h⟩ := step_eq_some h
  have hfile : p.file fd = some f := Process.file_eq_some.mpr ⟨i, hi, hf⟩
  have hinstall {v : Nat} {f : File} (hv : p.table v = none) :
      (p.install v f).table fd = some i := by
    refine (Function.update_of_ne ?_ _ _).trans hi
    rintro rfl
    rw [hv] at hi
    cases hi
  cases c with
  | socket domain type =>
    refine iff_of_true ?_ id
    simp only [call] at h
    split at h
    · cases h
      exact hi
    · next v hv =>
      cases h
      exact hinstall (hfresh v hv)
  | close fd' =>
    cases h
    by_cases hfd : fd' = fd
    · simp [Process.close, Displaces, hfd]
    · simp [Process.close, Displaces, hfd, Function.update_of_ne (Ne.symm hfd), hi]
  | dup2 old new =>
    simp only [call] at h
    split at h
    · next hold =>
      cases h
      by_cases hfd : new = fd
      · subst hfd
        simp [Process.dup2, Displaces, hold, hi]
      · simp [Process.dup2, Displaces, hfd, Function.update_of_ne (Ne.symm hfd), hi]
    · next hold =>
      cases h
      exact iff_of_true hi fun hd => hold hd.2.1
  | epollAdd epfd fd' =>
    cases h
    obtain ⟨q, -, -, hadd, -, htable⟩ :=
      (epollCtlAdd_cases hfresh (rfl : epollCtlAdd p k epfd fd' = _)).before
    refine iff_of_true ?_ id
    refine (congrFun (libcEpollAdd_files hadd).2 fd).trans ((htable fd fun f₁ hf₁ => ?_).trans hi)
    rw [hfile] at hf₁
    cases hf₁
    exact hno
  | epollDel epfd fd' =>
    cases h
    exact iff_of_true hi id
  | connect fd' addr =>
    obtain ⟨r, hr, h⟩ := Option.map_eq_some_iff.mp h
    cases h
    refine iff_of_true ?_ id
    cases connect_cases hfresh hr with
    | libc _ h =>
      rcases libcConnect_cases h with ⟨-, hp'⟩ | ⟨-, _, _, -, -, hp'⟩
      · rw [hp']
        exact hi
      · rw [hp', Process.table_modify]
        exact hi
    | connected _ _ _ _ hp' =>
      rw [hp', Process.table_modify]
      exact hi
    | converted hf' hp hip _ hp' =>
      rw [hp']
      refine (Function.update_of_ne ?_ _ _).trans hi
      rintro rfl
      rw [hfile] at hf'
      cases hf'
      exact hno ⟨hp.1, hip⟩
    | failed _ _ _ _ _ hp' =>
      rw [hp', Process.table_modify]
      exact hi
  | bind fd' addr =>
    cases bind_cases hfresh (Option.some.inj h) with
    | libc hno' hp' =>
      rw [hp']
      refine iff_of_true hi ?_
      rintro ⟨rfl, -, f', hf', hv⟩
      exact hno' f' hf' hv
    | vended hf' hv hok _ hp' =>
      rw [hp']
      by_cases hfd : fd' = fd
      · subst hfd
        refine iff_of_false ?_ (not_not.mpr ⟨rfl, hok, _, hf', hv⟩)
        have hlt : i < p.files.length := (List.getElem?_eq_some_iff.mp hf).1
        simp only [Process.install, Function.update_self, Option.some.injEq]
        omega
      · exact iff_of_true ((Function.update_of_ne (Ne.symm hfd) _ _).trans hi) fun h => hfd h.1
    | failed _ _ hfail _ hp' =>
      rw [hp']
      exact iff_of_true hi fun h => hfail h.2.1
  | listen fd' backlog =>
    cases h
    refine iff_of_true ?_ id
    obtain ⟨g, -, hp'⟩ := listen_cases (rfl : listen p k fd' backlog = _)
    exact (congrFun (congrArg Process.table hp') fd).trans
      ((congrFun (Process.table_modify _ _ _) fd).trans hi)
  | accept4 fd' addrlen flags =>
    obtain ⟨r, hr, h⟩ := Option.map_eq_some_iff.mp h
    cases h
    refine iff_of_true ?_ id
    rcases accept4_cases hfresh hr with hp' | ⟨v, f', hv, hp'⟩
    · rw [hp']
      exact hi
    · rw [hp']
      exact hinstall hv

theorem step_keeps {c : Call} {r : Option Int} (h : step p k c = some (p', r)) : Keeps p p' := by
  obtain ⟨hfresh, h⟩ := step_eq_some h
  have hupdate {fd : Nat} {o : Option Nat} (ho : ∀ i, o = some i → ∃ old, p.table old = some i) :
      Keeps p { p with table := Function.update p.table fd o } := by
    refine ⟨(Keeps.refl p).onward, fun hv fd' i hi => ?_⟩
    simp only [Function.update_apply] at hi
    split at hi
    · obtain ⟨old, hold⟩ := ho i hi
      exact hv old i hold
    · exact hv fd' i hi
  cases c with
  | socket domain type =>
    simp only [call] at h
    split at h
    · cases h
      exact .refl p
    · cases h
      exact keeps_install _ _
  | close fd' =>
    cases h
    exact hupdate fun i h => by cases h
  | dup2 old new =>
    simp only [call] at h
    split at h
    · cases h
      exact hupdate fun i hi => ⟨old, hi⟩
    · cases h
      exact .refl p
  | epollAdd epfd fd' =>
    cases h
    exact epollCtlAdd_keeps (epollCtlAdd_cases hfresh (rfl : epollCtlAdd p k epfd fd' = _))
  | epollDel epfd fd' =>
    cases h
    exact keeps_of_eq rfl rfl
  | connect fd' addr =>
    obtain ⟨r, hr, h⟩ := Option.map_eq_some_iff.mp h
    cases h
    exact connect_keeps (connect_cases hfresh hr)
  | bind fd' addr => exact bind_keeps (bind_cases hfresh (Option.some.inj h))
  | listen fd' backlog =>
    cases h
    obtain ⟨g, hg, hp'⟩ := listen_cases (rfl : listen p k fd' backlog = _)
    have hkeeps : Keeps p (p.modify fd' g) := keeps_modify fun f _ => hg f
    exact hp' ▸ hkeeps
  | accept4 fd' addrlen flags =>
    obtain ⟨r, hr, h⟩ := Option.map_eq_some_iff.mp h
    cases h
    rcases accept4_cases hfresh hr with hp' | ⟨v, f', hv, hp'⟩
    · rw [hp']
      exact .refl p
    · rw [hp']
      exact keeps_install _ _

/-- What a call does to the registrations. -/
theorem epoll_cases {c : Call} {ret : Option Int} (h : step p k c = some (p', ret)) :
    ((∀ epfd fd, c ≠ .epollDel epfd fd) ∧
      (p'.epoll = p.epoll ∨ ∃ epfd fd i, c = .epollAdd epfd fd ∧
        p'.epoll = ⟨epfd, fd, i⟩ :: p.epoll ∧ p'.table fd = some i ∧
        (k.socket.isSome ∧ k.dup2 = true → ∀ f, p'.files[i]? = some f →
          ¬ (f.type = SOCK_STREAM ∧ f.isIp)))) ∨
      ∃ epfd fd, c = .epollDel epfd fd ∧ p' = { p with epoll := p.epoll.filter fun r =>
        ¬ (r.epfd = epfd ∧ r.fd = fd ∧ p.table fd = some r.file) } := by
  obtain ⟨hfresh, h⟩ := step_eq_some h
  cases c with
  | socket domain type =>
    refine .inl ⟨fun _ _ => Call.noConfusion, .inl ?_⟩
    simp only [call] at h
    split at h <;> cases h <;> rfl
  | close fd' =>
    cases h
    exact .inl ⟨fun _ _ => Call.noConfusion, .inl rfl⟩
  | dup2 old new =>
    refine .inl ⟨fun _ _ => Call.noConfusion, .inl ?_⟩
    simp only [call] at h
    split at h <;> cases h <;> rfl
  | epollAdd epfd fd' =>
    cases h
    refine .inl ⟨fun _ _ => Call.noConfusion, ?_⟩
    obtain ⟨q, -, hepoll, hadd, hconverted, -⟩ :=
      (epollCtlAdd_cases hfresh (rfl : epollCtlAdd p k epfd fd' = _)).before
    rcases libcEpollAdd_cases hadd with hq | ⟨i, hi, hq⟩
    · exact .inl ((congrArg Process.epoll hq).trans hepoll)
    · refine .inr ⟨epfd, fd', i, rfl, ?_, ?_, fun hok f hf => ?_⟩
      · exact (congrArg Process.epoll hq).trans (congrArg _ hepoll)
      · exact (congrFun (congrArg Process.table hq) fd').trans hi
      · have hfiles : (epollCtlAdd p k epfd fd').1.files = q.files :=
          (congrArg Process.files hq).trans rfl
        exact hconverted hok f (Process.file_eq_some.mpr ⟨i, hi, hfiles ▸ hf⟩)
  | epollDel epfd fd' =>
    cases h
    exact .inr ⟨epfd, fd', rfl, rfl⟩
  | connect fd' addr =>
    obtain ⟨r, hr, h⟩ := Option.map_eq_some_iff.mp h
    cases h
    refine .inl ⟨fun _ _ => Call.noConfusion, .inl ?_⟩
    cases connect_cases hfresh hr with
    | libc _ h =>
      rcases libcConnect_cases h with ⟨-, hp'⟩ | ⟨-, _, _, -, -, hp'⟩
      · rw [hp']
      · rw [hp', Process.epoll_modify]
    | connected _ _ _ _ hp' => rw [hp', Process.epoll_modify]
    | converted _ _ _ _ hp' => rw [hp']; rfl
    | failed _ _ _ _ _ hp' => rw [hp', Process.epoll_modify]
  | bind fd' addr =>
    refine .inl ⟨fun _ _ => Call.noConfusion, .inl ?_⟩
    cases bind_cases hfresh (Option.some.inj h) with
    | libc _ hp' => rw [hp']
    | vended _ _ _ _ hp' => rw [hp']; rfl
    | failed _ _ _ _ hp' => rw [hp']
  | listen fd' backlog =>
    cases h
    obtain ⟨g, -, hp'⟩ := listen_cases (rfl : listen p k fd' backlog = _)
    exact .inl ⟨fun _ _ => Call.noConfusion, .inl ((congrArg Process.epoll hp').trans (Process.epoll_modify _ _ _))⟩
  | accept4 fd' addrlen flags =>
    obtain ⟨r, hr, h⟩ := Option.map_eq_some_iff.mp h
    cases h
    refine .inl ⟨fun _ _ => Call.noConfusion, .inl ?_⟩
    rcases accept4_cases hfresh hr with hp' | ⟨v, f', -, hp'⟩
    · rw [hp']
    · rw [hp']
      rfl

end Keeps

section Registered

variable {p p' : Process} {k : Kernel} {c : Call} {ret : Option Int} {r : Registration}

/-- The states of a process in which every conversion by `epoll_ctl` has succeeded. -/
inductive Converting : Process → Prop
  | start : Converting {}
  | step {p p' : Process} {k : Kernel} {c : Call} {ret : Option Int} : Converting p →
    (∀ epfd fd, c = .epollAdd epfd fd → k.socket.isSome ∧ k.dup2 = true) →
    step p k c = some (p', ret) → Converting p'

/-- No TCP socket is registered. -/
def Process.Converted (p : Process) : Prop :=
  ∀ r ∈ p.epoll, ∃ f, p.files[r.file]? = some f ∧ ¬ (f.type = SOCK_STREAM ∧ f.isIp)

theorem Onward.converted (ho : Onward p p') {i : Nat}
    (h : ∃ f, p.files[i]? = some f ∧ ¬ (f.type = SOCK_STREAM ∧ f.isIp)) :
    ∃ f, p'.files[i]? = some f ∧ ¬ (f.type = SOCK_STREAM ∧ f.isIp) := by
  obtain ⟨f, hf, hno⟩ := h
  obtain ⟨f', hf', hdomain, htype⟩ := ho i f hf
  refine ⟨f', hf', ?_⟩
  rw [File.isIp, hdomain, htype]
  exact hno

theorem Converting.converted (hc : Converting p) : p.Valid ∧ p.Converted := by
  induction hc with
  | start => exact ⟨nofun, List.forall_mem_nil _⟩
  | step _ hok h ih =>
    have hkeeps := step_keeps h
    have hvalid := hkeeps.valid ih.1
    refine ⟨hvalid, fun r hr => ?_⟩
    rcases epoll_cases h with ⟨-, hepoll | ⟨epfd, fd, i, rfl, hepoll, htable, hconverted⟩⟩ |
      ⟨epfd, fd, rfl, rfl⟩
    · rw [hepoll] at hr
      exact hkeeps.onward.converted (ih.2 r hr)
    · rw [hepoll] at hr
      rcases List.mem_cons.mp hr with rfl | hr
      · obtain ⟨f, hf⟩ := hvalid _ _ htable
        exact ⟨f, hf, hconverted (hok epfd fd rfl) f hf⟩
      · exact hkeeps.onward.converted (ih.2 r hr)
    · exact ih.2 r (List.mem_of_mem_filter hr)

/-- The registration is there, and for the file that its descriptor refers to. -/
def Live (p : Process) (r : Registration) : Prop := r ∈ p.epoll ∧ p.table r.fd = some r.file

/-- The call does not displace the descriptor of `r` and does not take it out of its instance. -/
def Undisturbed (r : Registration) (p : Process) (k : Kernel) (c : Call) : Prop :=
  ¬ Displaces p k r.fd c ∧ c ≠ .epollDel r.epfd r.fd

/-- One call. -/
theorem Live.step (hl : Live p r)
    (hf : ∃ f, p.files[r.file]? = some f ∧ ¬ (f.type = SOCK_STREAM ∧ f.isIp))
    (h : step p k c = some (p', ret)) :
    Live p' r ↔ Undisturbed r p k c := by
  obtain ⟨f, hf, hno⟩ := hf
  have htable := table_kept hl.2 hf hno h
  refine and_comm.trans (and_congr htable ?_)
  rcases epoll_cases h with ⟨hnodel, hepoll⟩ | ⟨epfd, fd, rfl, rfl⟩
  · refine iff_of_true ?_ (hnodel _ _)
    rcases hepoll with hepoll | ⟨_, _, _, -, hepoll, -⟩
    · exact hepoll ▸ hl.1
    · exact hepoll ▸ List.mem_cons_of_mem _ hl.1
  · have hiff : r ∈ p.epoll.filter (fun r =>
        ¬ (r.epfd = epfd ∧ r.fd = fd ∧ p.table fd = some r.file)) ↔
        ¬ (r.epfd = epfd ∧ r.fd = fd ∧ p.table fd = some r.file) := by
      simp only [List.mem_filter, hl.1, true_and, decide_eq_true_eq]
    refine hiff.trans (not_congr ⟨?_, ?_⟩)
    · rintro ⟨rfl, rfl, -⟩
      rfl
    · rintro heq
      cases heq
      exact ⟨rfl, rfl, hl.2⟩

/-- Calls that are all allowed. -/
inductive Steps (ok : Process → Kernel → Call → Prop) (p : Process) : Process → Prop
  | refl : Steps ok p p
  | step {p' p'' : Process} {k : Kernel} {c : Call} {ret : Option Int} : Steps ok p p' →
    ok p' k c → step p' k c = some (p'', ret) → Steps ok p p''

/-- Registrations survive. While every conversion by `epoll_ctl` succeeds, a descriptor that is
registered for the file it refers to stays so under any calls but these: it is taken out, closed or
overwritten by `dup2`, or `bind` hands it to the socket vendor. These do end it. In particular a
`connect` to an IP address, before or after other calls, leaves it registered. -/
theorem registrations_kept (hc : Converting p) (hl : Live p r) :
    (∀ k c p' ret, step p k c = some (p', ret) →
      (Live p' r ↔ Undisturbed r p k c)) ∧
    ∀ p', Steps (Undisturbed r) p p' → Live p' r := by
  have hconverted := hc.converted.2 r hl.1
  refine ⟨fun k c p' ret h => hl.step hconverted h, fun p' hu => ?_⟩
  have hkept : Live p' r ∧
      ∃ f, p'.files[r.file]? = some f ∧ ¬ (f.type = SOCK_STREAM ∧ f.isIp) := by
    induction hu with
    | refl => exact ⟨hl, hconverted⟩
    | step _ hundisturbed h ih =>
      exact ⟨(ih.1.step ih.2 h).mpr hundisturbed, (step_keeps h).onward.converted ih.2⟩
  exact hkept.1

/-- The application may go on taking its VSOCK connection for a TCP one: while it is not displaced,
the options of the TCP and IP levels succeed without libc, and `FIONREAD` is supported. -/
theorem options_kept {fd : Nat} {f : File} (hf : p.file fd = some f) (hdomain : f.domain = AF_VSOCK)
    (hs : Steps (fun p k c => ¬ Displaces p k fd c) p p') :
    (∀ level, level = IPPROTO_TCP ∨ level = IPPROTO_IP ∨ level = IPPROTO_IPV6 →
      sockopt p' fd level = some 0) ∧
    ∀ r, r.ret = -1 → r.opNotSupp = true → ioctl p' fd FIONREAD r = (0, some 0) := by
  obtain ⟨i, hi, hf⟩ := Process.file_eq_some.mp hf
  have hkept : p'.table fd = some i ∧ ∃ f', p'.files[i]? = some f' ∧ f'.domain = AF_VSOCK := by
    induction hs with
    | refl => exact ⟨hi, f, hf, hdomain⟩
    | step _ hno h ih =>
      obtain ⟨htable, f', hf', hdomain'⟩ := ih
      obtain ⟨f'', hf'', hdomain'', -⟩ := (step_keeps h).onward i f' hf'
      have hip : ¬ (f'.type = SOCK_STREAM ∧ f'.isIp) := fun h => not_isIp_of_vsock hdomain' h.2
      exact ⟨(table_kept htable hf' hip h).mpr hno, f'', hf'', hdomain''.trans hdomain'⟩
  obtain ⟨htable, f', hf', hdomain'⟩ := hkept
  have hfile : p'.file fd = some f' := Process.file_eq_some.mpr ⟨i, htable, hf'⟩
  refine ⟨fun level hlevel => ?_, fun r hret hno => ?_⟩
  · rw [sockopt, hfile, if_pos ⟨hlevel, by simp [hdomain']⟩]
  · rw [ioctl, hfile, if_pos ⟨hret, hno, rfl, by simp [hdomain']⟩]

end Registered

/-- A TCP socket, registered under descriptor 3 and then connected. -/
theorem exists_connected : ∃ p p', Converting p ∧ Live p ⟨5, 3, 1⟩ ∧
    step p dialling (.connect 3 localAddr) = some (p', some 0) := by
  refine ⟨_, _, .step (k := { socket := some 4 }) (c := .epollAdd 5 3)
    (.step (k := { socket := some 3 }) (c := .socket AF_INET SOCK_STREAM) .start nofun rfl) ?_ rfl,
    ?_, rfl⟩
  · intro _ _ _
    exact ⟨rfl, rfl⟩
  · exact ⟨by decide, by decide⟩

theorem registrations_kept_connect : ∃ p p', Converting p ∧ Live p ⟨5, 3, 1⟩ ∧
    step p dialling (.connect 3 localAddr) = some (p', some 0) ∧ Live p' ⟨5, 3, 1⟩ := by
  obtain ⟨p, p', hc, hl, h⟩ := exists_connected
  exact ⟨p, p', hc, hl, h, ((registrations_kept hc hl).1 _ _ _ _ h).mpr ⟨id, nofun⟩⟩

end Shim
end Proxy
end TrustedCa
