import Jbinit.Systemhook.SpawnOthers
import Jbinit.Systemhook.SpawnFast
import Jbinit.Systemhook.SpawnInject
import Jbinit.Palera1nd.BootstrapTrace
import Jbinit.Palera1nd.BootstrapSpec
import Jbinit.Palera1nd.BootstrapRemovals
import Jbinit.Palera1nd.BootstrapRetry
import Jbinit.Palera1nd.Operations
import Jbinit.Palera1nd.Handler
import Jbinit.Palera1nd.HandlerEntitled
import Jbinit.Foundations.Transitions
import Jbinit.Palera1nd.PayloadWakeup
import Jbinit.PayloadDylib.Launchd
import Jbinit.PayloadDylib.XpcHandler
import Jbinit.PayloadDylib.XpcSurvival
import Jbinit.Foundations.Numerals
import Jbinit.PayloadDylib.Reexec
import Jbinit.SafeMode
import Jbinit.Systemhook.EnvbufMap
import Jbinit.PayloadDylib.CrashReporter
import Jbinit.Systemhook.ExecAgree
import Jbinit.Palera1nd.BootstrapCalls
import Jbinit.Palera1nd.HandlerTotal
import Jbinit.Palera1nd.HandlerReplies
import Jbinit.Palera1nd.JailbreakDirectories
import Jbinit.Foundations.FileTree
import Jbinit.Palera1nd.OverwriteAllowlist
import Jbinit.PartialRoot
import Jbinit.Foundations.Arm64
import Jbinit.Foundations.Words
import Jbinit.PatchDyld.Plooshfinder
import Jbinit.PatchDyld.PlatformPatch
import Jbinit.PatchDyld.Redirects
import Jbinit.PatchDyld.Padding
import Jbinit.PatchDyld.Shellcode
import Jbinit.PatchDyld.Slices
import Jbinit.PatchDyld.Macho
import Jbinit.PatchDyld.DyldInCache
import Jbinit.Foundations.Buffers
import Jbinit.Systemhook.Search
import Jbinit.Systemhook.Jetsam
import Jbinit.Palera1nd.OverwriteContents
import Jbinit.Systemhook.Availability
import Jbinit.PatchDyld.Patcher
import Jbinit.PatchDyld.Sequence
import Jbinit.Libjailbreak.Platform
import Jbinit.RootDevice
import Jbinit.Palera1nd.PrebootListing
import Jbinit.Palera1nd.BogusVarJb
import Jbinit.Foundations.FileTreeLinks
import Jbinit.Palera1nd.CreateVarJb
import Jbinit.Foundations.LittleEndian
import Jbinit.Pinfo
import Jbinit.Foundations.Entries
import Jbinit.PayloadDylib.DaemonHooks
import Jbinit.Palera1nd.BootstrapHeld
import Jbinit.Palera1nd.BootstrapReleases
import Jbinit.P1ctl
import Jbinit.Fakedyld.SystemInfo
import Jbinit.Fakedyld.CleanFakefs
import Jbinit.Loader.RemoveJailbreakFiles
import Jbinit.Foundations.Lines
import Jbinit.Loader.FixupUserGroups
import Jbinit.Palera1nd.WriteLog
import Jbinit.Foundations.Loops
import Jbinit.Foundations.Occurrences
import Jbinit.Universalhooks.FindInsn
import Jbinit.Fakedyld.Memmem
import Jbinit.Fakedyld.PrintfStandard
import Jbinit.Bridgehook
import Jbinit.PayloadDylib.Backtrace
import Jbinit.Fakedyld.ExecveBuffer
import Jbinit.Palera1nd.Runcmd
import Jbinit.Palera1nd.RuncmdLog
import Jbinit.Palera1nd.RuncmdEnd
import Jbinit.Foundations.Crashes
import Jbinit.Loader.Fakefs
import Jbinit.Loader.FakefsStates
import Jbinit.Systemhook.Generations
import Jbinit.Foundations.Arm64Extended
import Jbinit.PatchDyld.Branches
import Jbinit.PatchDyld.Patched
import Jbinit.Reboot3
import Jbinit.UserspacePanic
import Jbinit.Fakedyld.BootStage
