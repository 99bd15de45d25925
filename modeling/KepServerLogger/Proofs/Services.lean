import KepServerLogger.Extractor.Services

/-!
# No handle is left open

Whatever the service control manager answers, and whichever of its calls
raises: a handle that `get_services` opens is closed once and not used after
that, and when it ends none is open. The rules of `Handles` say so for each of
its functions in turn.
-/

namespace KepServerLogger.Extractor

open KepServerLogger.Py KepServerLogger.Lib HandleCall Handling

variable (sm : ServiceManager) {handles : List Nat}

theorem keeps_resolveServiceName (name : String) : Keeps handles (resolveServiceName sm name) := by
  refine keeps_closing (acquires_opening (fun _ hk => absurd hk (Option.not_mem_none _)) _ _)
    (fun scm => keeps_handling (keeps_calling List.mem_cons_self _ _) fun e => ?_) _
  cases e with
  | win32 => exact keeps_pure name
  | other exc => exact keeps_raise _

theorem acquires_openService {scm : Nat} (hscm : scm ∈ handles) (name : String) :
    Acquires handles (openService sm scm name) :=
  acquires_opening (fun _ hk => Option.mem_some.mp hk ▸ hscm) _ _

theorem acquires_openNamed {scm : Nat} (hscm : scm ∈ handles) (name : String) :
    Acquires handles (openNamed sm scm name) := by
  refine acquires_handling (acquires_openService sm hscm name) fun e => ?_
  split
  · exact acquires_bind (keeps_resolveServiceName sm name) fun _ => acquires_openService sm hscm _
  · exact acquires_raise _

theorem keeps_queryService (name : String) {h : Nat} (hh : h ∈ handles) :
    Keeps handles (queryService sm name h) :=
  keeps_bind (keeps_calling hh _ _) fun _ => keeps_bind (keeps_calling hh _ _) fun _ _ hsound _ =>
    ⟨hsound, rfl⟩

theorem keeps_getServiceInfo (name : String) : Keeps handles (getServiceInfo sm name) := by
  refine keeps_closing (acquires_opening (fun _ hk => absurd hk (Option.not_mem_none _)) _ _)
    (fun scm => keeps_handling ?_ fun e => keeps_raise (errorRetrieving name e)) _
  exact keeps_closing (acquires_openNamed sm List.mem_cons_self name)
    (fun h => keeps_queryService sm name List.mem_cons_self) _

theorem returns_getServiceInfo (name : String) :
    Returns (getServiceInfo sm name) fun info => name = info.name := by
  refine returns_bind fun scm => returns_finally' (returns_handling ?_ fun e => returns_raise _ _)
  refine returns_bind fun h => returns_finally' ?_
  refine returns_bind fun status => returns_bind fun process_id => fun t info hinfo => ?_
  cases hinfo
  rfl

/-- However the service control manager behaves, `get_services` makes every
call on a handle that is open, closes every handle that it opens exactly once
and leaves none open; and if it returns, then the services that it was asked
for, in that order. -/
theorem getServices_tidy (service_names : List String) :
    let (result, calls) := getServices sm service_names []
    (Sound calls ∧ live calls = [] ∧ ∀ h < opens calls, closings h calls = 1) ∧
      ∀ infos, result = .ok infos → infos.map ServiceInfo.name = service_names := by
  obtain ⟨hsound, hlive⟩ :=
    keeps_forEach (keeps_getServiceInfo sm) service_names [] .nil (List.nil_subset _)
  have hreturns := returns_forEach (returns_getServiceInfo sm) service_names []
  refine ⟨⟨hsound, hlive, fun h hh => hsound.closings_eq_one hlive hh⟩, fun infos hinfos => ?_⟩
  have hall := List.forall₂_map_right_iff.mpr (hreturns infos hinfos)
  rw [List.forall₂_eq_eq_eq] at hall
  exact hall.symm

end KepServerLogger.Extractor
