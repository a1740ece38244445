import Mathlib.Data.Finset.Basic
import Mathlib.Data.Finset.Lattice.Lemmas
import SgFtdi.Stream.Model.Session

/-!
# Stream — the libusb context that streams share

libusb keeps, for each of its contexts, the descriptors it polls on and
one pair of notifiers, which it calls at each change of them. A stream
asks for the descriptors in `process_init`, registers them one by one in
its `usb_epoll_fd` and then installs `add_to_usb_epoll` and
`remove_from_usb_epoll` with itself as their `user_data`. `process_cleanup`
and the destructor install nothing in their place. The streams here are
those on one context, and every registration succeeds.
-/

namespace SgFtdi

namespace Stream

/-- How far a stream is in watching libusb's descriptors: it has not asked
for them, it was answered and has yet to register `rest`, it has installed
its notifiers, it is destroyed. -/
inductive Registration where
  | off
  | answered (answer rest : List ℤ)
  | installed
  | destroyed
deriving DecidableEq

/-- A stream, with the descriptors registered in its `usb_epoll_fd`. -/
structure Watcher where
  registration : Registration
  usbEpoll : Finset ℤ

/-- **A libusb context**, with the streams on it. `notified` is the
`user_data` of the installed notifiers. -/
structure UsbContext where
  pollfds : Finset ℤ
  notified : Option ℕ
  stream : ℕ → Watcher

namespace UsbContext

/-- A context whose streams are all constructed and none is started. -/
def fresh (pollfds : Finset ℤ) : UsbContext where
  pollfds := pollfds
  notified := none
  stream _ := ⟨.off, ∅⟩

/-- Stream `i` goes on to a state. -/
def put (c : UsbContext) (i : ℕ) (w : Watcher) : UsbContext :=
  { c with stream := Function.update c.stream i w }

/-- `libusb_set_pollfd_notifiers`. -/
def setPollfdNotifiers (c : UsbContext) (userData : Option ℕ) : UsbContext :=
  { c with notified := userData }

/-- libusb changes its descriptors and calls the notifier, which does the
same to the `usb_epoll_fd` of the stream it was installed for. -/
def change (c : UsbContext) (f : Finset ℤ → Finset ℤ) : UsbContext where
  pollfds := f c.pollfds
  notified := c.notified
  stream i :=
    if c.notified = some i then { c.stream i with usbEpoll := f (c.stream i).usbEpoll }
    else c.stream i

end UsbContext

/-- **A move on a context**: libusb's, or that of a stream, in its
`process_init`, its `process_cleanup` or its destructor. -/
inductive ContextMove : Option ℕ → UsbContext → UsbContext → Prop
  | added {c : UsbContext} {fd : ℤ} : fd ∉ c.pollfds →
      ContextMove none c (c.change (insert fd))
  | removed {c : UsbContext} {fd : ℤ} : fd ∈ c.pollfds →
      ContextMove none c (c.change (·.erase fd))
  | answered {c : UsbContext} {i : ℕ} {answer : List ℤ} :
      (c.stream i).registration = .off → answer.toFinset = c.pollfds →
      ContextMove (some i) c (c.put i ⟨.answered answer answer, ∅⟩)
  | registered {c : UsbContext} {i : ℕ} {answer rest : List ℤ} {fd : ℤ} :
      (c.stream i).registration = .answered answer (fd :: rest) →
      ContextMove (some i) c (c.put i ⟨.answered answer rest, insert fd (c.stream i).usbEpoll⟩)
  | installed {c : UsbContext} {i : ℕ} {answer : List ℤ} :
      (c.stream i).registration = .answered answer [] →
      ContextMove (some i) c
        ((c.put i { c.stream i with registration := .installed }).setPollfdNotifiers (some i))
  | cleaned {c : UsbContext} {i : ℕ} : (c.stream i).registration ≠ .destroyed →
      ContextMove (some i) c ((c.put i ⟨.off, ∅⟩).setPollfdNotifiers none)
  | destroyed {c : UsbContext} {i : ℕ} : (c.stream i).registration = .off →
      ContextMove (some i) c ((c.put i ⟨.destroyed, ∅⟩).setPollfdNotifiers none)

end Stream

end SgFtdi
