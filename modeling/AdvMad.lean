import AdvMad.Found.Run
import AdvMad.Found.Rows
import AdvMad.Found.Journal
import AdvMad.Found.Trunc
import AdvMad.Found.Calendar
import AdvMad.Lab1.Picker
import AdvMad.Lab1.Recorder
import AdvMad.Lab2.MoonList
import AdvMad.Lab2.Bounds
import AdvMad.Lab2.MoonSearch
import AdvMad.Lab2.Conservation
import AdvMad.Lab2.App
import AdvMad.Lab4.Search
import AdvMad.Lab5.Dogs
import AdvMad.Lab8.Favorite
import AdvMad.Lab8.Clients
import AdvMad.MTrackerIos.FailedLoad
import AdvMad.MTrackerIos.Durability
import AdvMad.MTrackerIos.StoredMacros
import AdvMad.MTrackerIos.Shown
import AdvMad.MTrackerIos.History
import AdvMad.MTrackerIos.Calculation
import AdvMad.MTrackerIos.Traps
import AdvMad.MTrackerIos.Age
import AdvMad.MTrackerAndroid.Refresh
import AdvMad.MTrackerAndroid.Entry
import AdvMad.MTrackerAndroid.MacrosFragment
import AdvMad.MTrackerAndroid.CurrentEntry
import AdvMad.MTrackerAndroid.Loading
import AdvMad.MTrackerAndroid.Clients
import AdvMad.MTrackerAndroid.Throws
import AdvMad.MTracker.Agreement
