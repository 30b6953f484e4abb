import DomesdayDuplicator.Foundations.ClockedCircuit
import DomesdayDuplicator.Gateware.BootLoader
import DomesdayDuplicator.Gateware.SerialFlash

/-!
# The factory image
-/

namespace FactoryImage

open SerialFlash (Content Link)
open FlashBridge (Window Byte)

structure Boot where
  loader : BootLoader.Registers
  link : Link
  deriving DecidableEq, Repr

def Boot.reset : Boot := ⟨BootLoader.reset, ⟨FlashBridge.reset, SerialFlash.initial⟩⟩

structure Inputs where
  registers : Window
  reconfigurationArmed : Bool

def Boot.window (registers : Window) (b : Boot) : Window :=
  if BootLoader.bootActive b.loader then b.loader.window else registers

def Boot.clock (content : Content) (i : Inputs) (b : Boot) : Boot :=
  { loader := BootLoader.clock (FlashBridge.dataRead b.link.bridge) b.link.bridge.busy
      i.reconfigurationArmed b.loader
    link := b.link.clock content (b.window i.registers) }

end FactoryImage
