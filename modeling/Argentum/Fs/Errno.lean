import Mathlib.Data.Int.Init

/-!
# Argentum.Fs.Errno

The error numbers that the file system code returns, with the values of newlib 4.4.0, which
`lib/lib.mk` builds the system with.
-/

namespace Argentum.Fs

def eNoEnt : Int := 2
def eIo : Int := 5
def eNoMem : Int := 12
def eBusy : Int := 16
def eExist : Int := 17
def eInval : Int := 22
def eFbig : Int := 27
def eNoSpc : Int := 28
def eNameTooLong : Int := 91
def eLoop : Int := 92
def eOverflow : Int := 139

end Argentum.Fs
